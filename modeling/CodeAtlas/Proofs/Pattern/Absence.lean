import CodeAtlas.Proofs.Pattern.Search
import CodeAtlas.Proofs.Pattern.Steps

set_option autoImplicit false

namespace CodeAtlas

namespace Text

/-- Two texts that differ at a place where both have a character. -/
def clashes : Text → Text → Bool
  | x :: s, y :: t => x != y || clashes s t
  | _, _ => false

/-- None of some words can begin in a text, whatever follows it. -/
def avoids (ws : List Text) : Text → Bool
  | [] => true
  | x :: s => (ws.all fun w => clashes w (x :: s)) && avoids ws s

theorem avoids_of_subset {ws ws' : List Text} {s : Text} (hws : ws ⊆ ws')
    (h : avoids ws' s = true) : avoids ws s = true := by
  induction s with
  | nil => rfl
  | cons x s ih =>
    simp only [avoids, Bool.and_eq_true, List.all_eq_true] at h ⊢
    exact ⟨fun w hw => h.1 w (hws hw), ih h.2⟩

theorem append_ne_of_clashes {s t : Text} (h : clashes s t = true) (u v : Text) :
    s ++ u ≠ t ++ v := by
  induction s generalizing t with
  | nil => simp [clashes] at h
  | cons x s ih =>
    cases t with
    | nil => simp [clashes] at h
    | cons y t =>
      simp only [clashes, Bool.or_eq_true, bne_iff_ne] at h
      intro heq
      obtain ⟨hxy, heq⟩ := List.cons.inj heq
      rcases h with h | h
      · exact h hxy
      · exact ih h heq

end Text

namespace Pattern

variable {a : Pattern} {before : List Char} {s rest : Text} {p : Text.Class}

section Words

variable {ws : List Text}

def Opens (ws : List Text) (a : Pattern) : Prop :=
  ∀ {c : Cursor} {m : Match}, a.first? c = Option.some m → ∃ w ∈ ws, ∃ r, c.rest = w ++ r

theorem Opens.idle (ha : a.Opens ws) (h : Text.avoids ws s = true) : a.Idle before s rest := by
  induction s generalizing before with
  | nil => trivial
  | cons x s ih =>
    simp only [Text.avoids, Bool.and_eq_true, List.all_eq_true] at h
    refine ⟨Option.eq_none_iff_forall_ne_some.2 fun m hm => ?_, ih h.2⟩
    obtain ⟨w, hw, r, hr⟩ := ha hm
    exact Text.append_ne_of_clashes (h.1 w hw) r rest hr.symm

/-- The words of which one comes first where a pattern matches, given those for what follows the
pattern. The empty text stands for anything. -/
def openers : Pattern → List Text → List Text
  | text t, next => if t.isEmpty then next else [t]
  | seq a b, next => a.openers (b.openers next)
  | either a b, next => a.openers next ++ b.openers next
  | mark _ a, next => a.openers next
  | wordEdge, next | lineStart, next | lineEnd, next | .unless _, next => next
  | _, _ => [[]]

theorem exists_opener {β : Type} {c : Cursor} {m : Marks} {k : Cursor → Marks → Option β} {v : β}
    {next : List Text} (h : a.run c m k = Option.some v)
    (hk : ∀ c m v, k c m = Option.some v → ∃ w ∈ next, ∃ r, c.rest = w ++ r) :
    ∃ w ∈ a.openers next, ∃ r, c.rest = w ++ r := by
  induction a generalizing c m k v next with
  | text t =>
    cases t with
    | nil => exact hk c m v (by simpa [run, skip?] using h)
    | cons x t =>
      obtain ⟨r, hr, -⟩ := run_text_eq_some h
      exact ⟨_, .head _, r, hr⟩
  | seq a b iha ihb => exact iha h fun _ _ _ h => ihb h hk
  | either a b iha ihb =>
    rcases run_either_eq_some h with h | h
    · obtain ⟨w, hw, hr⟩ := iha h hk
      exact ⟨w, List.mem_append_left _ hw, hr⟩
    · obtain ⟨w, hw, hr⟩ := ihb h hk
      exact ⟨w, List.mem_append_right _ hw, hr⟩
  | mark part a ih => exact ih h fun c m v h => hk c _ v h
  | wordEdge => exact hk c m v (run_wordEdge_eq_some h).2
  | lineStart => exact hk c m v (run_lineStart_eq_some h).2
  | lineEnd =>
    rw [run] at h
    split at h
    · exact hk c m v h
    · cases h
  | «unless» a =>
    rw [run] at h
    split at h
    · cases h
    · exact hk c m v h
  | _ => exact ⟨[], .head _, c.rest, rfl⟩

theorem opens_openers (a : Pattern) : a.Opens (a.openers [[]]) :=
  fun h => exists_opener h fun c _ _ _ => ⟨[], .head _, c.rest, rfl⟩

theorem run_text_of_clashes {β : Type} {m : Marks} {k : Cursor → Marks → Option β} {t : Text}
    (h : Text.clashes t s = true) : (text t).run ⟨before, s ++ rest⟩ m k = none := by
  refine Option.eq_none_iff_forall_ne_some.2 fun v hv => ?_
  obtain ⟨r, hr, _⟩ := run_text_eq_some hv
  exact Text.append_ne_of_clashes h r rest hr.symm

end Words

def isBound : Pattern → Bool
  | lineStart => true
  | seq a _ => a.isBound
  | _ => false

theorem run_eq_none_of_isBound {β : Type} {c : Cursor} {m : Marks} {k : Cursor → Marks → Option β}
    (ha : a.isBound = true) (hc : c.atLineStart = false) : a.run c m k = none := by
  induction a generalizing m k with
  | lineStart => exact run_lineStart_eq_none hc
  | seq a b ih => exact ih ha
  | _ => cases ha

theorem first?_of_isBound (ha : a.isBound = true) (c : Cursor) (hc : c.atLineStart = false) :
    a.first? c = none := run_eq_none_of_isBound ha hc

/-- A pattern confined to a class does not get past a text that has another character, and nothing
inside that text follows it. -/
theorem run_eq_none_of_within {β : Type} {m : Marks} {k : Cursor → Marks → Option β} (ha : a.Within p)
    (hs : ∃ x ∈ s, p x = false) (hk : ∀ b y r m', y ∈ s → k ⟨b, y :: r⟩ m' = none) :
    a.run ⟨before, s ++ rest⟩ m k = none := by
  refine Option.eq_none_iff_forall_ne_some.2 fun v hv => ?_
  obtain ⟨t, r, m', hr, ht, hv⟩ := run_eq_some_of_within ha hv
  obtain ⟨x, hx, hpx⟩ := hs
  rcases List.append_eq_append_iff.1 hr with ⟨u, htu, _⟩ | ⟨u, hsu, hru⟩
  · have hpass := ht x (htu ▸ List.mem_append_left u hx)
    rw [hpx] at hpass
    cases hpass
  · cases u with
    | nil =>
      have hpass := ht x (by simpa [hsu] using hx)
      rw [hpx] at hpass
      cases hpass
    | cons y u =>
      rw [hru, List.cons_append, hk _ y _ m' (by simp [hsu])] at hv
      cases hv

section Demands

def Demands (p : Text.Class) : Pattern → Prop
  | one q => ∀ x, q x = true → p x = true
  | text t => ∃ x ∈ t, p x = true
  | seq a b => a.Demands p ∨ b.Demands p
  | either a b => a.Demands p ∧ b.Demands p
  | mark _ a => a.Demands p
  | _ => False

theorem within_all (a : Pattern) : a.Within fun _ => true := by
  induction a <;> simp_all [Within]

theorem exists_mem_of_demands (ha : a.Demands p) {c : Cursor} {m : Marks} {w : Cursor × Marks}
    (h : w ∈ a.ways c m) : ∃ x ∈ c.rest, p x = true := by
  induction a generalizing c m w with
  | one q =>
    obtain ⟨before, _ | ⟨x, rest⟩⟩ := c
    · simp [ways] at h
    · by_cases hx : q x = true
      · exact ⟨x, .head _, ha x hx⟩
      · simp [ways, hx] at h
  | text t =>
    simp only [ways, List.mem_map, Option.mem_toList] at h
    obtain ⟨d, hd, rfl⟩ := h
    obtain ⟨x, hx, hp⟩ := ha
    exact ⟨x, (passes_of_skip? hd).2 ▸ List.mem_append_left _ hx, hp⟩
  | seq a b iha ihb =>
    simp only [ways, List.mem_flatMap] at h
    obtain ⟨v, hv, hw⟩ := h
    rcases ha with ha | hb
    · exact iha ha hv
    · obtain ⟨x, hx, hp⟩ := ihb hb hw
      obtain ⟨t, ⟨-, hr⟩, -⟩ := through_of_mem_ways (within_all a) hv
      exact ⟨x, hr ▸ List.mem_append_right _ hx, hp⟩
  | either a b iha ihb =>
    simp only [ways, List.mem_append] at h
    rcases h with h | h
    · exact iha ha.1 h
    · exact ihb ha.2 h
  | mark part a ih =>
    simp only [ways, List.mem_map] at h
    obtain ⟨v, hv, rfl⟩ := h
    exact ih ha hv
  | _ => exact ha.elim

theorem findAll_eq_nil_of_demands (ha : a.Demands p) {t : Text} (ht : ∀ x ∈ t, p x = false) :
    a.findAll t = [] := by
  have hidle : a.Idle [] t [] := by
    refine idle_of_forall fun u x v hu => Option.eq_none_iff_forall_ne_some.2 fun m hm => ?_
    obtain ⟨y, hy, hp⟩ := exists_mem_of_demands ha (mem_ways_of_first? hm)
    have hmem : y ∈ t := hu ▸ List.mem_append_right u (by simpa using hy)
    rw [ht y hmem] at hp
    cases hp
  have hfind := findFrom_of_idle hidle
  rwa [List.append_nil, findFrom_nil] at hfind

end Demands

end Pattern

end CodeAtlas
