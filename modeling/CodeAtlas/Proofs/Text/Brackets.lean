import CodeAtlas.Text.Cursor
import CodeAtlas.Text.Nesting

/-!
Texts whose brackets match, whatever their kinds: the depth never falls below that of the beginning
and ends where it began. Such a text is passed over as a whole, wherever it stands, so splitting a
join of such texts gives them back, and a search finds nothing in them but what is outside their
brackets.
-/

set_option autoImplicit false

namespace CodeAtlas.Nesting

/-- Whether a character closes a bracket. The end of an arrow does not. -/
def closes (last : Option Char) (c : Char) : Bool := isCloser c && !endsArrow last c

def isBracket (c : Char) : Bool := isOpener c || isCloser c

/-- The depth behind a text, unless a bracket closes in it at depth zero. -/
def depthFrom (depth : Nat) (last : Option Char) : Text → Option Nat
  | [] => some depth
  | c :: rest =>
    if depth = 0 ∧ closes last c then none else depthFrom (deepen depth last c) (some c) rest

def exposedFrom (depth : Nat) (last : Option Char) : Text → Text
  | [] => []
  | c :: rest =>
    let depth' := deepen depth last c
    if depth = 0 ∧ depth' = 0 then c :: exposedFrom depth' (some c) rest
    else exposedFrom depth' (some c) rest

def lastOf (last : Option Char) : Text → Option Char
  | [] => last
  | c :: rest => lastOf (some c) rest

def Closed (t : Text) : Prop := depthFrom 0 none t = some 0

def outer (t : Text) : Text := exposedFrom 0 none t

theorem deepen_eq (depth : Nat) (last : Option Char) (c : Char) :
    deepen depth last c =
      if isOpener c then depth + 1 else if closes last c then depth - 1 else depth := rfl

theorem closes_eq_false_of_isOpener {last : Option Char} {c : Char} (h : isOpener c = true) :
    closes last c = false := by
  simp only [isOpener, Bool.or_eq_true, beq_iff_eq] at h
  rcases h with ((rfl | rfl) | rfl) | rfl <;> rfl

theorem isOpener_eq_false_of_closes {last : Option Char} {c : Char} (h : closes last c = true) :
    isOpener c = false := by
  cases ho : isOpener c with
  | false => rfl
  | true => rw [closes_eq_false_of_isOpener ho] at h; cases h

theorem deepen_of_not_isBracket {depth : Nat} {last : Option Char} {c : Char}
    (h : isBracket c = false) : deepen depth last c = depth := by
  simp only [isBracket, Bool.or_eq_false_iff] at h
  simp [deepen, h.1, h.2]

theorem closes_of_not_isBracket {last : Option Char} {c : Char} (h : isBracket c = false) :
    closes last c = false := by
  simp only [isBracket, Bool.or_eq_false_iff] at h
  simp [closes, h.2]

theorem closes_of_ne {last : Option Char} {c : Char} (h : c ≠ '>') (last' : Option Char) :
    closes last c = closes last' c := by
  have hc : (c == '>') = false := by simpa using h
  simp only [closes, endsArrow, hc, Bool.false_and]

theorem deepen_of_ne {depth : Nat} {last : Option Char} {c : Char} (h : c ≠ '>')
    (last' : Option Char) : deepen depth last c = deepen depth last' c := by
  rw [deepen_eq, deepen_eq, closes_of_ne h last']

theorem depthFrom_append (depth : Nat) (last : Option Char) (s t : Text) :
    depthFrom depth last (s ++ t) =
      (depthFrom depth last s).bind fun e => depthFrom e (lastOf last s) t := by
  induction s generalizing depth last with
  | nil => rfl
  | cons c s ih =>
    simp only [List.cons_append, depthFrom, lastOf, ih]
    split <;> rfl

theorem exposedFrom_append {depth e : Nat} {last : Option Char} {s : Text}
    (h : depthFrom depth last s = some e) (t : Text) :
    exposedFrom depth last (s ++ t) =
      exposedFrom depth last s ++ exposedFrom e (lastOf last s) t := by
  induction s generalizing depth last with
  | nil => cases h; rfl
  | cons c s ih =>
    simp only [depthFrom] at h
    split at h
    · cases h
    · simp only [List.cons_append, exposedFrom, lastOf, ih h]
      split <;> rfl

theorem deepen_add {depth : Nat} {last : Option Char} {c : Char}
    (h : ¬ (depth = 0 ∧ closes last c = true)) (n : Nat) :
    deepen (depth + n) last c = deepen depth last c + n := by
  rw [deepen_eq, deepen_eq]
  split
  · omega
  · split
    · have hd : depth ≠ 0 := fun h0 => h ⟨h0, by assumption⟩
      omega
    · rfl

theorem not_mem_exposedFrom_cons {x : Char} {depth : Nat} {last : Option Char} {c : Char} {t : Text}
    (h : x ∉ exposedFrom depth last (c :: t)) :
    ¬ (depth = 0 ∧ deepen depth last c = 0 ∧ c = x) ∧
      x ∉ exposedFrom (deepen depth last c) (some c) t := by
  simp only [exposedFrom] at h
  split at h
  · exact ⟨fun ⟨_, _, hx⟩ => h (hx ▸ .head _), fun hx => h (.tail _ hx)⟩
  · rename_i hc
    exact ⟨fun ⟨h0, h1, _⟩ => hc ⟨h0, h1⟩, h⟩

/-- What is deeper at the beginning is deeper by as much at the end. -/
theorem depthFrom_add {depth e : Nat} {last : Option Char} {t : Text}
    (h : depthFrom depth last t = some e) (n : Nat) :
    depthFrom (depth + n) last t = some (e + n) := by
  induction t generalizing depth last with
  | nil => cases h; rfl
  | cons c t ih =>
    simp only [depthFrom] at h ⊢
    split at h
    · cases h
    · rename_i hc
      have hn : ¬ (depth + n = 0 ∧ closes last c = true) := fun hd => hc ⟨by omega, hd.2⟩
      rw [if_neg hn, deepen_add hc, ih h]

theorem depthFrom_plain {depth : Nat} {last : Option Char} {c : Char} (ho : isOpener c = false)
    (hc : closes last c = false) (t : Text) :
    depthFrom depth last (c :: t) = depthFrom depth (some c) t := by
  simp [depthFrom, deepen_eq, ho, hc]

theorem depthFrom_enclosed {o c : Char} {s : Text} (ho : isOpener o = true)
    (hs : depthFrom 0 (some o) s = some 0) (hc : closes (lastOf (some o) s) c = true)
    (depth : Nat) (last : Option Char) (t : Text) :
    depthFrom depth last (o :: (s ++ c :: t)) = depthFrom depth (some c) t := by
  have hopen : ¬ (depth = 0 ∧ closes last o = true) := by
    simp [closes_eq_false_of_isOpener ho]
  have hinside : depthFrom (depth + 1) (some o) s = some (depth + 1) := by
    simpa [Nat.add_comm] using depthFrom_add hs (depth + 1)
  rw [depthFrom, if_neg hopen, deepen_eq, if_pos ho, depthFrom_append, hinside]
  simp [depthFrom, deepen_eq, isOpener_eq_false_of_closes hc, hc]

theorem exposedFrom_succ {depth e : Nat} {last : Option Char} {t : Text}
    (h : depthFrom depth last t = some e) : exposedFrom (depth + 1) last t = [] := by
  induction t generalizing depth last with
  | nil => rfl
  | cons c t ih =>
    simp only [depthFrom] at h
    split at h
    · cases h
    · rename_i hc
      simp only [exposedFrom, deepen_add hc, ih h]
      simp

theorem lastOf_ne {last : Option Char} {c : Char} {t : Text} (h : last ≠ some c) (ht : c ∉ t) :
    lastOf last t ≠ some c := by
  induction t generalizing last with
  | nil => exact h
  | cons d t ih =>
    exact ih (fun hd => ht (Option.some.inj hd ▸ .head _)) fun hc => ht (.tail _ hc)

section Closed

variable {s t : Text}

theorem Closed.head_ne (h : Closed t) : t.head? ≠ some '>' := by
  cases t with
  | nil => simp
  | cons c t =>
    rintro hc
    cases hc
    simp [Closed, depthFrom, closes, isCloser, endsArrow] at h

theorem depthFrom_of_head_ne {depth : Nat} {last : Option Char} (h : t.head? ≠ some '>')
    (last' : Option Char) : depthFrom depth last t = depthFrom depth last' t := by
  cases t with
  | nil => rfl
  | cons c t =>
    have hc : c ≠ '>' := by simpa using h
    simp only [depthFrom, closes_of_ne hc last', deepen_of_ne hc last']

theorem exposedFrom_of_head_ne {depth : Nat} {last : Option Char} (h : t.head? ≠ some '>')
    (last' : Option Char) : exposedFrom depth last t = exposedFrom depth last' t := by
  cases t with
  | nil => rfl
  | cons c t =>
    have hc : c ≠ '>' := by simpa using h
    simp only [exposedFrom, deepen_of_ne hc last']

theorem Closed.depthFrom_eq (h : Closed t) (depth : Nat) (last : Option Char) :
    depthFrom depth last t = some depth := by
  rw [depthFrom_of_head_ne h.head_ne none]
  simpa using depthFrom_add h depth

theorem Closed.exposedFrom_zero (h : Closed t) (last : Option Char) :
    exposedFrom 0 last t = outer t := exposedFrom_of_head_ne h.head_ne none

theorem closed_nil : Closed [] := rfl

theorem Closed.append (hs : Closed s) (ht : Closed t) : Closed (s ++ t) := by
  rw [Closed, depthFrom_append, hs]
  exact ht.depthFrom_eq 0 _

theorem Closed.outer_append (hs : Closed s) (ht : Closed t) : outer (s ++ t) = outer s ++ outer t := by
  rw [outer, exposedFrom_append hs, ht.exposedFrom_zero]
  rfl

theorem Closed.cons {c : Char} (hc : isBracket c = false) (ht : Closed t) : Closed (c :: t) := by
  rw [Closed, depthFrom_plain (Bool.or_eq_false_iff.1 hc).1 (closes_of_not_isBracket hc)]
  exact ht.depthFrom_eq 0 _

theorem Closed.outer_cons {c : Char} (hc : isBracket c = false) (ht : Closed t) :
    outer (c :: t) = c :: outer t := by
  rw [outer, exposedFrom, deepen_of_not_isBracket hc, ht.exposedFrom_zero]
  simp

theorem closed_of_forall (h : ∀ c ∈ t, isBracket c = false) : Closed t ∧ outer t = t := by
  induction t with
  | nil => exact ⟨closed_nil, rfl⟩
  | cons c t ih =>
    obtain ⟨ht, ho⟩ := ih fun d hd => h d (.tail _ hd)
    have hc := h c (.head _)
    exact ⟨ht.cons hc, by rw [ht.outer_cons hc, ho]⟩

theorem Closed.enclose {o c : Char} (ho : isOpener o = true) (ht : Closed t)
    (hc : closes (lastOf (some o) t) c = true) :
    Closed (o :: (t ++ [c])) ∧ outer (o :: (t ++ [c])) = [] := by
  have h1 : deepen 0 none o = 1 := by simp [deepen, ho]
  have h2 : deepen 1 (lastOf (some o) t) c = 0 := by
    simp [deepen_eq, isOpener_eq_false_of_closes hc, hc]
  constructor
  · rw [Closed, depthFrom_enclosed ho (ht.depthFrom_eq 0 _) hc]
    rfl
  · rw [outer, exposedFrom, h1, exposedFrom_append (ht.depthFrom_eq 1 _)]
    have hs : exposedFrom 1 (some o) t = [] := exposedFrom_succ (ht.depthFrom_eq 0 _)
    simp [hs, exposedFrom, h2]

end Closed

/-- A text in which no separator is exposed is passed over. -/
theorem splitFrom_append {sep : Char} (hsep : isBracket sep = false) {depth e : Nat}
    {last : Option Char} {t : Text} (hd : depthFrom depth last t = some e)
    (ht : sep ∉ exposedFrom depth last t) (part rest : Text) :
    splitFrom sep depth last part (t ++ rest) =
      splitFrom sep e (lastOf last t) (t.reverse ++ part) rest := by
  induction t generalizing depth last part with
  | nil => cases hd; rfl
  | cons c t ih =>
    obtain ⟨hmiss, htail⟩ := not_mem_exposedFrom_cons ht
    simp only [depthFrom] at hd
    split at hd
    · cases hd
    · have hcut : ¬ (c = sep ∧ deepen depth last c = 0) := by
        rintro ⟨rfl, h0⟩
        exact hmiss ⟨by rwa [deepen_of_not_isBracket hsep] at h0, h0, rfl⟩
      simp only [List.cons_append, splitFrom, if_neg hcut, lastOf, ih hd htail]
      simp

theorem split_joinWith {sep : Char} (hsep : isBracket sep = false) {ts : List Text} (hne : ts ≠ [])
    (h : ∀ t ∈ ts, Closed t ∧ sep ∉ outer t) : split sep (Text.joinWith [sep] ts) = ts := by
  have step : ∀ last, splitFrom sep 0 last [] (Text.joinWith [sep] ts) = ts := by
    induction ts with
    | nil => exact absurd rfl hne
    | cons t ts ih =>
      intro last
      obtain ⟨ht, hout⟩ := h t (.head _)
      have hexp : sep ∉ exposedFrom 0 last t := by rwa [ht.exposedFrom_zero]
      cases ts with
      | nil =>
        have hsplit := splitFrom_append hsep (ht.depthFrom_eq 0 last) hexp [] []
        simp only [List.append_nil] at hsplit
        simp [hsplit, splitFrom]
      | cons t' ts =>
        rw [Text.joinWith_cons_cons, List.append_assoc,
          splitFrom_append hsep (ht.depthFrom_eq 0 last) hexp]
        have ih := ih (by simp) (fun u hu => h u (.tail _ hu)) (some sep)
        simp [splitFrom, deepen_of_not_isBracket hsep, ih]
  exact step none

/-- Whether a text has no target at depth zero. An equality sign that begins an arrow is none. -/
def missesFrom (target : Char) (depth : Nat) (last : Option Char) : Text → Bool
  | [] => true
  | c :: rest =>
    (c != target || depth != 0 || (c == '=' && rest.head? == some '>')) &&
      missesFrom target (deepen depth last c) (some c) rest

def Misses (target : Char) (t : Text) : Prop := missesFrom target 0 none t = true

instance (target : Char) (t : Text) : Decidable (Misses target t) :=
  inferInstanceAs (Decidable (_ = true))

section Misses

variable {target : Char} {s t : Text}

theorem missesFrom_of_not_mem (hb : isBracket target = false) {depth : Nat} {last : Option Char}
    (ht : target ∉ exposedFrom depth last t) : missesFrom target depth last t = true := by
  induction t generalizing depth last with
  | nil => rfl
  | cons c t ih =>
    obtain ⟨hmiss, htail⟩ := not_mem_exposedFrom_cons ht
    rw [missesFrom, ih htail, Bool.and_true]
    by_cases hc : c = target
    · have hdepth : depth ≠ 0 := by
        rintro rfl
        exact hmiss ⟨rfl, by rw [hc, deepen_of_not_isBracket hb], hc⟩
      simp [hdepth]
    · simp [hc]

theorem misses_of_not_mem (hb : isBracket target = false) (ht : target ∉ outer t) :
    Misses target t := missesFrom_of_not_mem hb ht

theorem missesFrom_append {depth e : Nat} {last : Option Char}
    (hd : depthFrom depth last s = some e) (hs : missesFrom target depth last s = true)
    (ht : missesFrom target e (lastOf last s) t = true) :
    missesFrom target depth last (s ++ t) = true := by
  induction s generalizing depth last with
  | nil => cases hd; exact ht
  | cons c s ih =>
    simp only [depthFrom] at hd
    split at hd
    · cases hd
    · rw [missesFrom, Bool.and_eq_true] at hs
      rw [List.cons_append, missesFrom, ih hd hs.2 ht, Bool.and_true]
      cases s with
      | nil => simp_all
      | cons d s => exact hs.1

theorem missesFrom_of_head_ne {depth : Nat} {last : Option Char} (h : t.head? ≠ some '>')
    (last' : Option Char) : missesFrom target depth last t = missesFrom target depth last' t := by
  cases t with
  | nil => rfl
  | cons c t =>
    have hc : c ≠ '>' := by simpa using h
    simp only [missesFrom, deepen_of_ne hc last']

theorem Misses.append (hs : Misses target s) (ht : Misses target t) (hsc : Closed s)
    (htc : Closed t) : Misses target (s ++ t) :=
  missesFrom_append hsc hs ((missesFrom_of_head_ne htc.head_ne none).trans ht)

theorem findFrom_append {depth e : Nat} {last : Option Char}
    (hd : depthFrom depth last t = some e) (ht : missesFrom target depth last t = true)
    (index : Nat) (rest : Text) :
    findFrom target depth last index (t ++ rest) =
      findFrom target e (lastOf last t) (index + t.length) rest := by
  induction t generalizing depth last index with
  | nil => cases hd; rfl
  | cons c t ih =>
    rw [missesFrom, Bool.and_eq_true] at ht
    obtain ⟨hmiss, htail⟩ := ht
    simp only [depthFrom] at hd
    split at hd
    · cases hd
    · have hcond : (!(isOpener c || (isCloser c && !endsArrow last c)) && c == target && depth == 0
          && !(target == '=' && continuesSign (t ++ rest))) = false := by
        by_cases hfound : c = target ∧ depth = 0
        · obtain ⟨rfl, rfl⟩ := hfound
          -- only the sign of an arrow can stand here
          cases t with
          | nil => simp at hmiss
          | cons d t =>
            have harrow : c = '=' ∧ d = '>' := by simpa using hmiss
            simp [harrow.1, harrow.2, continuesSign]
        · rw [Bool.eq_false_iff]
          intro h
          simp only [Bool.and_eq_true, beq_iff_eq] at h
          exact hfound ⟨h.1.1.2, h.1.2⟩
      rw [List.cons_append, findFrom]
      simp only [hcond, ih hd htail, lastOf, List.length_cons]
      simp [Nat.add_comm, Nat.add_left_comm]

theorem Closed.find?_eq_none (h : Closed t) (ht : Misses target t) : find? target t = none := by
  have hf := findFrom_append h ht 0 []
  rw [List.append_nil] at hf
  rw [find?, hf]
  rfl

theorem Closed.find?_append (h : Closed t) (ht : Misses target t)
    (hb : isBracket target = false) {rest : Text}
    (hr : target = '=' → continuesSign rest = false) :
    find? target (t ++ target :: rest) = some t.length := by
  rw [find?, findFrom_append h ht]
  simp only [isBracket, Bool.or_eq_false_iff] at hb
  have hsign : (target == '=' && continuesSign rest) = false := by
    by_cases he : target = '='
    · simp [hr he]
    · simp [he]
  simp [findFrom, hb.1, hb.2, hsign]

end Misses

end CodeAtlas.Nesting
