import CodeAtlas.Text.Blank
import CodeAtlas.Text.Cursor

/-!
Patterns and their first match. A pattern may match at a place in several ways, and the ways are
ordered: the first alternative before the second, more repetitions before fewer, or fewer before
more where the pattern says so. The match of a pattern in a context is the first way with which the
rest of the context succeeds. `Pattern.ways` lists the ways in order, and `Pattern.run` finds the
first acceptable one without listing them; `run_eq_findSome?` says that the two agree.
-/

set_option autoImplicit false

namespace CodeAtlas

inductive Part where
  | name | parameters | lone | asynchronous | parent | interfaces | bases
  | typeOnly | default | named | namespace | source | binding | names
  deriving DecidableEq, Repr

abbrev Marks := List (Part × Cursor × Cursor)

inductive Pattern where
  | one (p : Text.Class)
  | text (t : Text)
  | seq (a b : Pattern)
  | either (a b : Pattern)
  | many (p : Text.Class)
  | few (p : Text.Class)
  | again (a : Pattern)
  /-- A pattern whose match is remembered. -/
  | mark (part : Part) (a : Pattern)
  | wordEdge
  | lineStart
  | lineEnd
  /-- The place where a pattern does not match. -/
  | unless (a : Pattern)

namespace Pattern

instance : Append Pattern := ⟨Pattern.seq⟩

def skip? : Text → Cursor → Option Cursor
  | [], c => some c
  | _ :: _, ⟨_, []⟩ => none
  | x :: t, ⟨before, y :: rest⟩ => if x = y then skip? t ⟨y :: before, rest⟩ else none

def iterate {β : Type} (step : Cursor → Marks → (Cursor → Marks → Option β) → Option β) :
    Nat → Cursor → Marks → (Cursor → Marks → Option β) → Option β
  | 0, c, m, k => k c m
  | n + 1, c, m, k => step c m (fun c' m' => iterate step n c' m' k) <|> k c m

/-- The result of the continuation at the first way of matching where it has one. -/
def run {β : Type} :
    Pattern → Cursor → Marks → (Cursor → Marks → Option β) → Option β
  | one p, c, m, k =>
    match c.rest with
    | [] => none
    | x :: rest => if p x then k ⟨x :: c.before, rest⟩ m else none
  | text t, c, m, k => (skip? t c).bind fun c' => k c' m
  | seq a b, c, m, k => a.run c m fun c' m' => b.run c' m' k
  | either a b, c, m, k => a.run c m k <|> b.run c m k
  | many p, c, m, k => (c.farthestFirst p).findSome? fun c' => k c' m
  | few p, c, m, k => (c.nearestFirst p).findSome? fun c' => k c' m
  | again a, c, m, k => iterate a.run c.rest.length c m k
  | mark part a, c, m, k => a.run c m fun c' m' => k c' ((part, c, c') :: m')
  | wordEdge, c, m, k => if c.atWordEdge then k c m else none
  | lineStart, c, m, k => if c.atLineStart then k c m else none
  | lineEnd, c, m, k => if c.atLineEnd then k c m else none
  | .unless a, c, m, k =>
    match a.run c m fun c' m' => some (c', m') with
    | some _ => none
    | none => k c m

def iterateWays (step : Cursor → Marks → List (Cursor × Marks)) :
    Nat → Cursor → Marks → List (Cursor × Marks)
  | 0, c, m => [(c, m)]
  | n + 1, c, m => (step c m).flatMap (fun (c', m') => iterateWays step n c' m') ++ [(c, m)]

/-- The ways of matching at a place, the preferred first. -/
def ways : Pattern → Cursor → Marks → List (Cursor × Marks)
  | one p, c, m =>
    match c.rest with
    | [] => []
    | x :: rest => if p x then [(⟨x :: c.before, rest⟩, m)] else []
  | text t, c, m => (skip? t c).toList.map fun c' => (c', m)
  | seq a b, c, m => (a.ways c m).flatMap fun (c', m') => b.ways c' m'
  | either a b, c, m => a.ways c m ++ b.ways c m
  | many p, c, m => (c.farthestFirst p).map fun c' => (c', m)
  | few p, c, m => (c.nearestFirst p).map fun c' => (c', m)
  | again a, c, m => iterateWays a.ways c.rest.length c m
  | mark part a, c, m => (a.ways c m).map fun (c', m') => (c', (part, c, c') :: m')
  | wordEdge, c, m => if c.atWordEdge then [(c, m)] else []
  | lineStart, c, m => if c.atLineStart then [(c, m)] else []
  | lineEnd, c, m => if c.atLineEnd then [(c, m)] else []
  | .unless a, c, m => if (a.ways c m).isEmpty then [(c, m)] else []

theorem findSome?_flatMap_eq {α γ β : Type} (f : α → List γ) (g : γ → Option β) (xs : List α) :
    (xs.flatMap f).findSome? g = xs.findSome? fun x => (f x).findSome? g := by
  induction xs with
  | nil => rfl
  | cons x xs ih =>
    rw [List.flatMap_cons, List.findSome?_append, ih, List.findSome?_cons]
    cases (f x).findSome? g <;> rfl

theorem iterate_eq_findSome? {β : Type}
    {step : Cursor → Marks → (Cursor → Marks → Option β) → Option β}
    {list : Cursor → Marks → List (Cursor × Marks)}
    (h : ∀ c m k, step c m k = (list c m).findSome? fun w => k w.1 w.2)
    (n : Nat) (c : Cursor) (m : Marks) (k : Cursor → Marks → Option β) :
    iterate step n c m k = (iterateWays list n c m).findSome? fun w => k w.1 w.2 := by
  induction n generalizing c m with
  | zero => simp [iterate, iterateWays]
  | succ n ih =>
    simp only [iterate, iterateWays, List.findSome?_append, findSome?_flatMap_eq, h, ih]
    simp

/-- Running a pattern is looking for the first of its ways that the continuation accepts. -/
theorem run_eq_findSome? {β : Type} (a : Pattern) (c : Cursor) (m : Marks)
    (k : Cursor → Marks → Option β) :
    a.run c m k = (a.ways c m).findSome? fun w => k w.1 w.2 := by
  induction a generalizing β c m k with
  | one p =>
    simp only [run, ways]
    split
    · rfl
    · split <;> simp
  | text t => simp only [run, ways]; cases skip? t c <;> simp
  | seq a b iha ihb => simp only [run, ways, findSome?_flatMap_eq, iha, ihb]
  | either a b iha ihb => simp [run, ways, List.findSome?_append, iha, ihb]
  | many p => simp only [run, ways, List.findSome?_map]; rfl
  | few p => simp only [run, ways, List.findSome?_map]; rfl
  | again a ih => simp only [run, ways]; exact iterate_eq_findSome? (fun c m k => ih c m k) _ c m k
  | mark part a ih => simp only [run, ways, List.findSome?_map, ih]; rfl
  | wordEdge => simp only [run, ways]; split <;> simp
  | lineStart => simp only [run, ways]; split <;> simp
  | lineEnd => simp only [run, ways]; split <;> simp
  | «unless» a ih =>
    simp only [run, ways, ih]
    cases a.ways c m <;> simp

def some (p : Text.Class) : Pattern := one p ++ many p

def optional (a : Pattern) : Pattern := either a (text [])

def char (x : Char) : Pattern := text [x]

def blanks : Pattern := many Text.isBlank

def optionalThenBlanks (a : Pattern) : Pattern := optional (a ++ blanks)

end Pattern

def Text.noneOf (excluded : Text) : Text.Class := fun c => !excluded.contains c

structure Match where
  first : Cursor
  last : Cursor
  marks : Marks

namespace Match

def width (m : Match) : Nat := m.last.before.length - m.first.before.length

def part? (m : Match) (part : Part) : Option Text :=
  match m.marks.find? fun (p, _) => p == part with
  | some (_, first, last) => some (first.between last)
  | none => none

def part (m : Match) (p : Part) : Text := (m.part? p).getD []

def has (m : Match) (p : Part) : Bool := (m.part? p).isSome

def line (m : Match) : Nat := m.first.lineNumber

def position (m : Match) : Nat := m.first.position

end Match

namespace Pattern

def first? (a : Pattern) (c : Cursor) : Option Match :=
  a.run c [] fun last marks => Option.some ⟨c, last, marks⟩

/-- The matches in the rest of a text whose next characters, as many as told, belong to the last
match. -/
def findFrom (a : Pattern) (covered : Nat) (before : List Char) : List Char → List Match
  | [] => []
  | x :: rest =>
    match covered with
    | n + 1 => findFrom a n (x :: before) rest
    | 0 =>
      match a.first? ⟨before, x :: rest⟩ with
      | none => findFrom a 0 (x :: before) rest
      | Option.some m => m :: findFrom a (m.width - 1) (x :: before) rest

/-- The matches of a pattern in a text, from left to right, none overlapping another. -/
def findAll (a : Pattern) (t : Text) : List Match := findFrom a 0 [] t

theorem first?_eq_head? (a : Pattern) (c : Cursor) :
    a.first? c = (a.ways c []).head?.map fun (last, marks) => ⟨c, last, marks⟩ := by
  rw [first?, run_eq_findSome?]
  cases a.ways c [] <;> rfl

theorem first_of_first? {a : Pattern} {c : Cursor} {m : Match}
    (h : a.first? c = Option.some m) : m.first = c := by
  rw [first?_eq_head?, Option.map_eq_some_iff] at h
  obtain ⟨w, _, rfl⟩ := h
  rfl

end Pattern

end CodeAtlas
