import CodeAtlas.Text.Pattern

set_option autoImplicit false

namespace CodeAtlas

namespace Pattern

variable {a : Pattern} {before : List Char}

/-- No match begins in a stretch of text, given what comes before it and what follows it. -/
def Idle (a : Pattern) : List Char → Text → Text → Prop
  | _, [], _ => True
  | before, x :: s, rest =>
    a.first? ⟨before, x :: (s ++ rest)⟩ = none ∧ Idle a (x :: before) s rest

@[simp] theorem idle_nil (rest : Text) : a.Idle before [] rest := trivial

theorem idle_append {s t rest : Text} :
    a.Idle before (s ++ t) rest ↔
      a.Idle before s (t ++ rest) ∧ a.Idle (s.reverse ++ before) t rest := by
  induction s generalizing before with
  | nil => simp
  | cons x s ih => simp [Idle, ih, and_assoc]

theorem idle_append_assoc {b c : Pattern} {s rest : Text} :
    (a ++ b ++ c).Idle before s rest ↔ (a ++ (b ++ c)).Idle before s rest := by
  induction s generalizing before with
  | nil => exact Iff.rfl
  | cons x s ih => exact and_congr Iff.rfl ih

theorem idle_of_forall {s rest : Text}
    (h : ∀ u x v, s = u ++ x :: v →
      a.first? ⟨u.reverse ++ before, x :: (v ++ rest)⟩ = none) : a.Idle before s rest := by
  induction s generalizing before with
  | nil => trivial
  | cons x s ih =>
    refine ⟨h [] x s rfl, ih fun u y v hs => ?_⟩
    simpa using h (x :: u) y v (by simp [hs])

theorem findFrom_of_idle {s rest : Text} (h : a.Idle before s rest) :
    a.findFrom 0 before (s ++ rest) = a.findFrom 0 (s.reverse ++ before) rest := by
  induction s generalizing before with
  | nil => rfl
  | cons x s ih =>
    rw [List.cons_append, findFrom, h.1]
    simpa using ih h.2

theorem findFrom_covered (s rest : Text) :
    a.findFrom s.length before (s ++ rest) = a.findFrom 0 (s.reverse ++ before) rest := by
  induction s generalizing before with
  | nil => rfl
  | cons x s ih =>
    rw [List.cons_append, List.length_cons, findFrom]
    simpa using ih

theorem findFrom_of_first? {s rest : Text} (hs : s ≠ []) {m : Match}
    (h : a.first? ⟨before, s ++ rest⟩ = Option.some m)
    (hm : m.last = ⟨s.reverse ++ before, rest⟩) :
    a.findFrom 0 before (s ++ rest) = m :: a.findFrom 0 (s.reverse ++ before) rest := by
  cases s with
  | nil => exact absurd rfl hs
  | cons x s =>
    have hw : m.width - 1 = s.length := by
      have hlen : ((x :: s).reverse ++ before).length = s.length + 1 + before.length := by
        rw [List.length_append, List.length_reverse, List.length_cons]
      rw [Match.width, hm, first_of_first? h, hlen]
      exact (by omega : s.length + 1 + before.length - before.length - 1 = s.length)
    rw [List.cons_append, findFrom]
    simp only [List.cons_append] at h
    rw [h]
    simp only [hw, findFrom_covered]
    simp

@[simp] theorem findFrom_nil (covered : Nat) : a.findFrom covered before [] = [] := rfl

section Lines

variable (hl : ∀ c, c.atLineStart = false → a.first? c = none)
include hl

theorem idle_in_line {s rest : Text} (hs : '\n' ∉ s) {x : Char} (hx : x ≠ '\n') :
    a.Idle (x :: before) (s ++ ['\n']) rest := by
  induction s generalizing x before with
  | nil => exact ⟨hl _ (by simpa [Cursor.atLineStart] using hx), trivial⟩
  | cons y s ih =>
    have hy : y ≠ '\n' := fun h => hs (h ▸ .head _)
    exact ⟨hl _ (by simpa [Cursor.atLineStart] using hx), ih (fun h => hs (.tail _ h)) hy⟩

theorem findFrom_line {s rest : Text} (hs : '\n' ∉ s)
    (h : a.first? ⟨before, s ++ '\n' :: rest⟩ = none) :
    a.findFrom 0 before (s ++ '\n' :: rest) = a.findFrom 0 ('\n' :: (s.reverse ++ before)) rest := by
  have hi : a.Idle before (s ++ ['\n']) rest := by
    cases s with
    | nil => exact ⟨h, trivial⟩
    | cons x s =>
      refine ⟨by simpa using h, idle_in_line hl (fun hm => hs (.tail _ hm)) ?_⟩
      exact fun hx => hs (hx ▸ .head _)
  simpa using findFrom_of_idle hi

/-- A line that a match begins holds no other match behind it. -/
theorem findFrom_line_of_first? {s t rest : Text} (hs : s ≠ []) (hsn : '\n' ∉ s) (ht : '\n' ∉ t)
    {m : Match} (h : a.first? ⟨before, s ++ (t ++ '\n' :: rest)⟩ = Option.some m)
    (hm : m.last = ⟨s.reverse ++ before, t ++ '\n' :: rest⟩) :
    a.findFrom 0 before (s ++ (t ++ '\n' :: rest)) =
      m :: a.findFrom 0 ('\n' :: ((s ++ t).reverse ++ before)) rest := by
  rw [findFrom_of_first? hs h hm]
  obtain ⟨x, r, hr⟩ := List.exists_cons_of_ne_nil (mt List.reverse_eq_nil_iff.1 hs)
  have hx : x ≠ '\n' := by
    rintro rfl
    exact hsn (List.mem_reverse.1 (hr ▸ .head _))
  have hi : a.Idle (s.reverse ++ before) (t ++ ['\n']) rest := by
    rw [hr]
    exact idle_in_line hl ht hx
  simpa using findFrom_of_idle hi

end Lines

section Yields

variable {α : Type} {record : Match → List α} {s t rest : Text} {xs ys : List α}

/-- Over a stretch of text the search gives some records, given what comes before it and what
follows it. -/
def Yields (a : Pattern) (record : Match → List α) (before : List Char) (s rest : Text)
    (xs : List α) : Prop :=
  (a.findFrom 0 before (s ++ rest)).flatMap record =
    xs ++ (a.findFrom 0 (s.reverse ++ before) rest).flatMap record

theorem yields_of_idle (h : a.Idle before s rest) : a.Yields record before s rest [] := by
  rw [Yields, findFrom_of_idle h, List.nil_append]

theorem yields_of_first? (hs : s ≠ []) {m : Match}
    (h : a.first? ⟨before, s ++ rest⟩ = Option.some m) (hm : m.last = ⟨s.reverse ++ before, rest⟩) :
    a.Yields record before s rest (record m) := by
  rw [Yields, findFrom_of_first? hs h hm, List.flatMap_cons]

theorem Yields.append (hs : a.Yields record before s (t ++ rest) xs)
    (ht : a.Yields record (s.reverse ++ before) t rest ys) :
    a.Yields record before (s ++ t) rest (xs ++ ys) := by
  rw [Yields] at hs ht ⊢
  rw [List.append_assoc, hs, ht, List.reverse_append]
  simp only [List.append_assoc]

theorem Yields.enclosed {l r : Text} (hl : a.Idle before l (s ++ (r ++ rest)))
    (h : a.Yields record (l.reverse ++ before) s (r ++ rest) xs)
    (hr : a.Idle (s.reverse ++ (l.reverse ++ before)) r rest) :
    a.Yields record before (l ++ (s ++ r)) rest xs := by
  have hlead : a.Yields record before l (s ++ r ++ rest) [] :=
    yields_of_idle (by rwa [List.append_assoc])
  have hall := hlead.append (h.append (yields_of_idle hr))
  rwa [List.append_nil, List.nil_append] at hall

theorem yields_line (hl : ∀ c, c.atLineStart = false → a.first? c = none) (hs : '\n' ∉ s)
    (h : a.first? ⟨before, s ++ '\n' :: rest⟩ = none) :
    a.Yields record before (s ++ ['\n']) rest [] := by
  have hfind := findFrom_line hl hs h
  simp [Yields, hfind]

theorem yields_line_of_first? (hl : ∀ c, c.atLineStart = false → a.first? c = none) (hs : s ≠ [])
    (hsn : '\n' ∉ s) (ht : '\n' ∉ t) {m : Match}
    (h : a.first? ⟨before, s ++ (t ++ '\n' :: rest)⟩ = Option.some m)
    (hm : m.last = ⟨s.reverse ++ before, t ++ '\n' :: rest⟩) :
    a.Yields record before (s ++ t ++ ['\n']) rest (record m) := by
  have hfind := findFrom_line_of_first? hl hs hsn ht h hm
  simp [Yields, hfind]

end Yields

-- Texts that consist of blocks, each ended by a line feed.

section Blocks

variable {α β : Type} (block : α → Text)

def blocks (xs : List α) : Text := xs.flatMap fun x => block x ++ ['\n']

def placesFrom : List Char → List α → List (List Char × α)
  | _, [] => []
  | before, x :: xs => (before, x) :: placesFrom ((block x ++ ['\n']).reverse ++ before) xs

variable {block}

/-- A search that yields records over every block, given the blocks behind it, gives them one after
another. -/
theorem flatMap_findFrom_blocks_of_suffix {record : Match → List β} (found : List Char → α → List β)
    {xs : List α} (hb : (Cursor.mk before []).atLineStart = true)
    (h : ∀ x zs, x :: zs <:+ xs → ∀ before, (Cursor.mk before []).atLineStart = true →
      a.Yields record before (block x ++ ['\n']) (blocks block zs) (found before x)) :
    (a.findFrom 0 before (blocks block xs)).flatMap record =
      (placesFrom block before xs).flatMap fun p => found p.1 p.2 := by
  induction xs generalizing before with
  | nil => rfl
  | cons x xs ih =>
    have hx := h x xs (List.suffix_refl _) before hb
    have hnext : (Cursor.mk ((block x ++ ['\n']).reverse ++ before) []).atLineStart = true := by
      simp [Cursor.atLineStart]
    rw [blocks, List.flatMap_cons]
    exact hx.trans (congrArg _ (ih hnext fun y zs hy => h y zs (hy.trans (List.suffix_cons _ _))))

theorem flatMap_findFrom_blocks {record : Match → List β} (found : List Char → α → List β)
    {xs : List α} (hb : (Cursor.mk before []).atLineStart = true)
    (h : ∀ x ∈ xs, ∀ before rest, (Cursor.mk before []).atLineStart = true →
      a.Yields record before (block x ++ ['\n']) rest (found before x)) :
    (a.findFrom 0 before (blocks block xs)).flatMap record =
      (placesFrom block before xs).flatMap fun p => found p.1 p.2 :=
  flatMap_findFrom_blocks_of_suffix found hb fun x zs hx before =>
    h x (hx.mem (.head _)) before (blocks block zs)

/-- The line on which a block begins, if all blocks before it have as many lines. -/
theorem map_count_placesFrom {xs : List α} {k n : Nat} (hk : ∀ x ∈ xs, (block x).count '\n' = k)
    (hn : before.count '\n' = (k + 1) * n) :
    (placesFrom block before xs).map (fun p => (p.2, p.1.count '\n')) =
      (xs.zipIdx n).map fun p => (p.1, (k + 1) * p.2) := by
  induction xs generalizing before n with
  | nil => rfl
  | cons x xs ih =>
    have hcount : ((block x ++ ['\n']).reverse ++ before).count '\n' = (k + 1) * (n + 1) := by
      rw [List.count_append, List.count_reverse, List.count_append, hk x (.head _), hn,
        List.count_singleton_self, Nat.mul_succ, Nat.add_comm]
    simp only [placesFrom, List.map_cons, List.zipIdx_cons, hn,
      ih (fun y hy => hk y (.tail _ hy)) hcount]

theorem flatMap_findAll_blocks {record : Match → List β} (found : Nat → α → List β) {xs : List α}
    {k : Nat} (hk : ∀ x ∈ xs, (block x).count '\n' = k)
    (h : ∀ x ∈ xs, ∀ before rest, (Cursor.mk before []).atLineStart = true →
      a.Yields record before (block x ++ ['\n']) rest (found (before.count '\n' + 1) x)) :
    (a.findAll (blocks block xs)).flatMap record =
      xs.zipIdx.flatMap fun p => found ((k + 1) * p.2 + 1) p.1 := by
  have hplaces : (placesFrom block [] xs).map (fun p => (p.2, p.1.count '\n')) =
      xs.zipIdx.map fun p => (p.1, (k + 1) * p.2) := map_count_placesFrom hk rfl
  have hstart : (Cursor.mk [] []).atLineStart = true := rfl
  have hfind := flatMap_findFrom_blocks (fun before => found (before.count '\n' + 1)) hstart h
  have hflat := congrArg (List.flatMap fun p : α × Nat => found (p.2 + 1) p.1) hplaces
  rw [List.flatMap_map, List.flatMap_map] at hflat
  exact hfind.trans hflat

theorem findAll_blocks_eq_nil {xs : List α}
    (h : ∀ x ∈ xs, ∀ before rest, a.Idle before (block x ++ ['\n']) rest) :
    a.findAll (blocks block xs) = [] := by
  have hstart : (Cursor.mk [] []).atLineStart = true := rfl
  have hfind : (a.findFrom 0 [] (blocks block xs)).flatMap (fun m => [m]) =
      (placesFrom block [] xs).flatMap fun _ => [] :=
    flatMap_findFrom_blocks (fun _ _ => []) hstart fun x hx before rest _ =>
      yields_of_idle (h x hx before rest)
  rw [List.flatMap_singleton'] at hfind
  exact hfind.trans (List.flatMap_eq_nil_iff.2 fun _ _ => rfl)

theorem map_snd_placesFrom (before : List Char) (xs : List α) :
    (placesFrom block before xs).map Prod.snd = xs := by
  induction xs generalizing before with
  | nil => rfl
  | cons x xs ih => simp [placesFrom, ih]

theorem length_le_of_mem_placesFrom {xs : List α} {p : List Char × α}
    (h : p ∈ placesFrom block before xs) : before.length ≤ p.1.length := by
  induction xs generalizing before with
  | nil => cases h
  | cons x xs ih =>
    rcases List.mem_cons.1 h with rfl | h
    · exact Nat.le_refl _
    · exact Nat.le_trans (by simp; omega) (ih h)

theorem pairwise_length_placesFrom (block : α → Text) (before : List Char) (xs : List α) :
    ((placesFrom block before xs).map fun p => (p.1.length, p.2)).Pairwise
      fun p q => p.1 < q.1 := by
  refine List.pairwise_map.2 ?_
  induction xs generalizing before with
  | nil => exact .nil
  | cons x xs ih =>
    refine .cons (fun p hp => ?_) (ih _)
    have hle := length_le_of_mem_placesFrom hp
    simp only [List.length_append, List.length_reverse, List.length_singleton] at hle
    exact (by omega : before.length < p.1.length)

end Blocks

end Pattern

end CodeAtlas
