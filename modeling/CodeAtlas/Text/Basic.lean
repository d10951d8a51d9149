/-!
Text as the list of its code points, so that every length and position of this library counts code
points. Here are the operations that need no character table: joining, cutting at the ends,
searching, and the decimal form of a number.
-/

set_option autoImplicit false

namespace CodeAtlas

/-- A text is the list of its code points. -/
abbrev Text := List Char

instance : Coe String Text := ⟨String.toList⟩

instance : LawfulBEq Text := inferInstance

/-- What holds of all code points of a text is decided by going through the text, not through all
code points that there are. -/
instance (p : Char → Prop) [DecidablePred p] (t : Text) : Decidable (∀ c ∈ t, p c) :=
  List.decidableBAll p t

namespace Text

def joinWith (sep : Text) : List Text → Text
  | [] => []
  | [t] => t
  | t :: u :: rest => t ++ sep ++ joinWith sep (u :: rest)

def concat (ts : List Text) : Text := ts.flatten

def dropRight (p : Char → Bool) (t : Text) : Text := (t.reverse.dropWhile p).reverse

def trim (p : Char → Bool) (t : Text) : Text := dropRight p (t.dropWhile p)

def startsWith (t start : Text) : Bool := start.isPrefixOf t

def endsWith (t ending : Text) : Bool := ending.isSuffixOf t

def occursIn (needle : Text) : Text → Bool
  | [] => needle.isEmpty
  | c :: rest => needle.isPrefixOf (c :: rest) || occursIn needle rest

def cutAt? (sep : Text) : Text → Option (Text × Text)
  | [] => if sep.isEmpty then some ([], []) else none
  | c :: rest =>
    if sep.isPrefixOf (c :: rest) then some ([], (c :: rest).drop sep.length)
    else (cutAt? sep rest).map fun (before, behind) => (c :: before, behind)

/-- The pieces between the occurrences of a character, empty ones included. -/
def splitAt (sep : Char) : Text → List Text
  | [] => [[]]
  | c :: rest =>
    if c = sep then [] :: splitAt sep rest
    else match splitAt sep rest with
      | [] => [[c]]
      | piece :: pieces => (c :: piece) :: pieces

def replaceChar (old new : Char) (t : Text) : Text := t.map fun c => if c = old then new else c

def ofNat (n : Nat) : Text := Nat.toDigits 10 n

def ofInt : Int → Text
  | .ofNat n => ofNat n
  | .negSucc n => '-' :: ofNat (n + 1)

@[simp] theorem joinWith_nil (sep : Text) : joinWith sep [] = [] := rfl

@[simp] theorem joinWith_singleton (sep t : Text) : joinWith sep [t] = t := rfl

@[simp] theorem joinWith_cons_cons (sep t u : Text) (rest : List Text) :
    joinWith sep (t :: u :: rest) = t ++ sep ++ joinWith sep (u :: rest) := rfl

@[simp] theorem concat_nil : concat [] = [] := rfl

@[simp] theorem concat_cons (t : Text) (ts : List Text) : concat (t :: ts) = t ++ concat ts := rfl

theorem splitAt_ne_nil (sep : Char) (t : Text) : splitAt sep t ≠ [] := by
  induction t with
  | nil => simp [splitAt]
  | cons c rest ih =>
    simp only [splitAt]
    split
    · simp
    · split <;> simp

theorem joinWith_splitAt (sep : Char) (t : Text) : joinWith [sep] (splitAt sep t) = t := by
  induction t with
  | nil => rfl
  | cons c rest ih =>
    simp only [splitAt]
    split
    · rename_i h
      subst h
      cases hs : splitAt c rest with
      | nil => exact absurd hs (splitAt_ne_nil c rest)
      | cons p ps => rw [joinWith_cons_cons, ← hs, ih]; rfl
    · split
      · rename_i hs; exact absurd hs (splitAt_ne_nil sep rest)
      · rename_i p ps hs
        rw [hs] at ih
        cases ps with
        | nil => simpa using ih
        | cons q qs => simpa using ih

theorem startsWith_iff {t start : Text} : startsWith t start = true ↔ ∃ u, start ++ u = t := by
  simp [startsWith, List.isPrefixOf_iff_prefix, List.IsPrefix]

theorem endsWith_iff {t ending : Text} : endsWith t ending = true ↔ ∃ u, u ++ ending = t := by
  simp [endsWith, List.isSuffixOf_iff_suffix, List.IsSuffix]

theorem length_replaceChar (old new : Char) (t : Text) :
    (replaceChar old new t).length = t.length := by
  simp [replaceChar]

end Text

end CodeAtlas
