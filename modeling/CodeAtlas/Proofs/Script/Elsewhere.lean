import CodeAtlas.Proofs.Pattern.Absence
import CodeAtlas.Proofs.Script.Texts

set_option autoImplicit false

namespace CodeAtlas.Script

open Pattern

variable {before : List Char} {s rest : Text} {a b : Pattern} {ws : List Text}

section Words

def Among (ws : List Text) (a : Pattern) : Prop :=
  ∀ (β : Type) (c : Cursor) (m : Marks) (k : Cursor → Marks → Option β),
    (∀ w ∈ ws, (text w).run c m k = none) → a.run c m k = none

theorem among_text (w : Text) : Among [w] (text w) :=
  fun _ _ _ _ h => h w (.head _)

theorem among_binder : Among ["const", "let", "var"] binder := by
  intro β c m k h
  rw [binder, run_either, run_either, h _ (.head _), h _ (.tail _ (.head _)),
    h _ (.tail _ (.tail _ (.head _)))]
  rfl

theorem functionPattern_opens : functionPattern.Opens ["function"] := opens_openers _

theorem classPattern_opens : classPattern.Opens ["class"] := opens_openers _

theorem arrowPattern_opens : arrowPattern.Opens ["const", "let", "var"] := opens_openers _

theorem exportVariablePattern_opens : exportVariablePattern.Opens ["export"] := opens_openers _

theorem exportDefaultPattern_opens : exportDefaultPattern.Opens ["export"] := opens_openers _

end Words

section Gaps

variable {p : Text.Class} {starts : List Char} {z : Char} {β : Type} {m : Marks}
variable {k : Cursor → Marks → Option β}

theorem run_gap_eq_none {w : Text} (hw : w.getLast?.any p = true) (hzw : z ∉ w)
    (hz : Text.isBlank z = false) (hs : Clear p starts s) (hmem : z ∈ s)
    (hblank : ∀ d ∈ starts, Text.isBlank d = false)
    (hk : ∀ b d u m, d :: u <:+ s → d ∈ starts → k ⟨b, d :: (u ++ rest)⟩ m = none) :
    (text w).run ⟨before, s ++ rest⟩ m (fun c m => (Pattern.some Text.isBlank).run c m k) = none := by
  refine Option.eq_none_iff_forall_ne_some.2 fun v hv => ?_
  obtain ⟨r, hr, hv⟩ := run_text_eq_some hv
  obtain ⟨g, r, hg, rfl, hblanks, hv⟩ := run_some_eq_some hv
  obtain ⟨x, g, rfl⟩ := List.exists_cons_of_ne_nil hg
  have hx : Text.isBlank x = true := hblanks x (.head _)
  have hr' : s ++ rest = (w ++ [x]) ++ (g ++ r) := by simpa using hr
  rcases List.append_eq_append_iff.1 hr' with ⟨u, hwu, _⟩ | ⟨u, hsu, hru⟩
  · have hin : z ∈ w ++ [x] := hwu ▸ List.mem_append_left u hmem
    rcases List.mem_append.1 hin with h | h
    · exact hzw h
    · rw [← List.mem_singleton.1 h, hz] at hx
      cases hx
  · obtain ⟨c, hlast, hc⟩ := (Option.any_eq_true _ _).1 hw
    obtain ⟨w, rfl⟩ := List.getLast?_eq_some_iff.1 hlast
    have hclear : Clear p starts (w ++ (c :: x :: u)) := by simpa [hsu] using hs
    obtain ⟨-, d, hd, hstart⟩ := hclear.of_append.1 hc hx
    obtain ⟨u, rfl⟩ := List.head?_eq_some_iff.1 hd
    cases g with
    | nil =>
      cases hru
      have hsuffix : d :: u <:+ s := ⟨_, hsu.symm⟩
      exact absurd (hv.symm.trans (hk _ d u m hsuffix hstart)) (by simp)
    | cons y g =>
      obtain ⟨rfl, -⟩ := List.cons.inj hru
      have hy := hblanks y (.tail _ (.head _))
      rw [hblank y hstart] at hy
      cases hy

/-- A pattern that has no match where one of some characters comes first. -/
def Shuns (starts : List Char) (b : Pattern) : Prop :=
  ∀ (β : Type) (c : Cursor) (m : Marks) (k : Cursor → Marks → Option β) (d : Char),
    c.rest.head? = Option.some d → d ∈ starts → b.run c m k = none

def ShunsIn (starts : List Char) (s rest : Text) (b : Pattern) : Prop :=
  ∀ (β : Type) (before : List Char) (d : Char) (u : Text) (m : Marks)
    (k : Cursor → Marks → Option β), d :: u <:+ s → d ∈ starts →
      b.run ⟨before, d :: (u ++ rest)⟩ m k = none

theorem Shuns.inside (h : Shuns starts b) (s rest : Text) : ShunsIn starts s rest b :=
  fun β _ d _ m k _ hd => h β _ m k d rfl hd

theorem shuns_ident (hs : ∀ d ∈ starts, isIdentStart d = false) (part : Part) :
    Shuns starts (mark part ident ++ b) := by
  intro β c m k d hd hstart
  refine Option.eq_none_iff_forall_ne_some.2 fun v hv => ?_
  rw [run_append, run_mark, ident, run_append] at hv
  obtain ⟨x, r, hr, hx, _⟩ := run_one_eq_some hv
  rw [hr] at hd
  rw [Option.some.inj hd, hs d hstart] at hx
  cases hx

theorem Among.shuns (ha : Among ws a) (hs : ∀ w ∈ ws, w.head?.any (fun x => x ∉ starts) = true) :
    Shuns starts (a ++ b) := by
  intro β c m k d hd hstart
  rw [run_append]
  refine ha _ _ _ _ fun w hw => ?_
  obtain ⟨x, hx, hxs⟩ := (Option.any_eq_true _ _).1 (hs w hw)
  refine run_text_eq_none hx fun hdx => of_decide_eq_true hxs ?_
  rw [← Option.some.inj (hd.symm.trans hdx)]
  exact hstart

theorem Shuns.mark {part : Part} (ha : Shuns starts a) : Shuns starts (mark part a) :=
  fun _ c m _ d hd hmem => ha _ c m _ d hd hmem

theorem Shuns.append (ha : Shuns starts a) (b : Pattern) : Shuns starts (a ++ b) :=
  fun _ c m _ d hd hmem => ha _ c m _ d hd hmem

theorem Shuns.either (ha : Shuns starts a) (hb : Shuns starts b) : Shuns starts (either a b) := by
  intro β c m k d hd hmem
  rw [run_either, ha _ c m k d hd hmem, hb _ c m k d hd hmem]
  rfl

theorem Shuns.optional_append (ha : Shuns starts a) (hb : Shuns starts b) :
    Shuns starts (optional a ++ b) :=
  fun _ c m k d hd hmem => run_optional_eq_none (ha _ c m _ d hd hmem) (hb _ c m k d hd hmem)

theorem Shuns.blanks_append (hs : ∀ d ∈ starts, Text.isBlank d = false) (hb : Shuns starts b) :
    Shuns starts (blanks ++ b) := by
  intro β c m k d hd hmem
  refine Option.eq_none_iff_forall_ne_some.2 fun v hv => ?_
  rw [run_append] at hv
  obtain ⟨g, r, hr, hg, hv⟩ := run_many_eq_some hv
  cases g with
  | nil =>
    have hr' : c.rest = r := hr
    exact absurd (hv.symm.trans (hb _ _ m k d (by simpa [← hr'] using hd) hmem)) (by simp)
  | cons x g =>
    rw [hr] at hd
    have hx := hg x (.head _)
    rw [Option.some.inj hd, hs d hmem] at hx
    cases hx

/-- In a clear text up to a sign no word is found that a space and then something else follows. -/
theorem idle_of_clear (ha : Among ws a) (hb : ShunsIn starts s rest b)
    (hws : ∀ w ∈ ws, w.getLast?.any p = true ∧ z ∉ w) (hs : Clear p starts s)
    (hlast : s.getLast? = Option.some z) (hz : Text.isBlank z = false)
    (hblank : ∀ d ∈ starts, Text.isBlank d = false) :
    (wordEdge ++ (a ++ (Pattern.some Text.isBlank ++ b))).Idle before s rest := by
  refine idle_of_forall fun u x v hu => Option.eq_none_iff_forall_ne_some.2 fun m hm => ?_
  have hmem : z ∈ x :: v := by
    rw [hu, List.getLast?_append_cons] at hlast
    exact List.mem_of_getLast? hlast
  have hclear : Clear p starts (x :: v) := (hu ▸ hs).of_append
  rw [first?, run_append] at hm
  obtain ⟨_, hm⟩ := run_wordEdge_eq_some hm
  refine absurd (hm.symm.trans (ha _ _ _ _ fun w hw => ?_)) (by simp)
  obtain ⟨hw, hzw⟩ := hws w hw
  refine run_gap_eq_none hw hzw hz hclear hmem hblank fun b d t m hsuffix hstart => ?_
  exact hb _ b d t m _ (hsuffix.trans ⟨u, hu.symm⟩) hstart

section Within

variable {excluded : Text}

theorem within_text {t : Text} (h : ∀ d ∈ excluded, d ∉ t) :
    (text t).Within (Text.noneOf excluded) := Text.noneOf_of_not_mem h

theorem within_blanks (h : ∀ d ∈ excluded, Text.isBlank d = false) :
    blanks.Within (Text.noneOf excluded) := Text.noneOf_of_class h

theorem within_gap (h : ∀ d ∈ excluded, Text.isBlank d = false) :
    (Pattern.some Text.isBlank).Within (Text.noneOf excluded) := ⟨within_blanks h, within_blanks h⟩

theorem within_identifier (h : ∀ d ∈ excluded, isIdentPart d = false) :
    ident.Within (Text.noneOf excluded) :=
  ⟨fun c hc => Text.noneOf_of_class h c (isIdentPart_of_isIdentStart hc), Text.noneOf_of_class h⟩

theorem within_binder (h : ∀ w ∈ [("const" : Text), "let", "var"], ∀ d ∈ excluded, d ∉ w) :
    binder.Within (Text.noneOf excluded) :=
  ⟨within_text (h _ (by simp)), within_text (h _ (by simp)), within_text (h _ (by simp))⟩

theorem within_typeArguments {t : Text} (h : ∀ d ∈ excluded, Text.noneOf t d = false)
    (hb : ∀ d ∈ excluded, Text.isBlank d = false) (hangle : ∀ d ∈ excluded, d ∉ ['<', '>']) :
    (typeArguments t).Within (Text.noneOf excluded) := by
  have hopen : (char '<').Within (Text.noneOf excluded) :=
    within_text fun d hd hm => hangle d hd (by simpa using .inl (List.mem_singleton.1 hm))
  have hclose : (char '>').Within (Text.noneOf excluded) :=
    within_text fun d hd hm => hangle d hd (by simpa using .inr (List.mem_singleton.1 hm))
  exact ⟨⟨⟨⟨hopen, Text.noneOf_of_class h⟩, hclose⟩, within_blanks hb⟩, within_text (by simp)⟩

end Within

/-- Nothing is found up to a sign that the beginning of a pattern does not pass, if what comes
behind that beginning does not occur. -/
theorem idle_of_within (ha : a.Within (Text.noneOf [z])) (hlast : s.getLast? = Option.some z)
    (hb : Shuns s b) : (a ++ b).Idle before s rest := by
  refine idle_of_forall fun u x v hu => Option.eq_none_iff_forall_ne_some.2 fun m hm => ?_
  have hmem : z ∈ x :: v := by
    rw [hu, List.getLast?_append_cons] at hlast
    exact List.mem_of_getLast? hlast
  have hstop : ∃ y ∈ x :: v, Text.noneOf [z] y = false := ⟨z, hmem, by simp [Text.noneOf]⟩
  rw [first?, run_append] at hm
  refine absurd (hm.symm.trans (run_eq_none_of_within (s := x :: v) ha hstop ?_)) (by simp)
  intro b' y r m' hy
  exact hb _ _ _ _ y rfl (hu ▸ List.mem_append_right u hy)

end Gaps

section Exports

variable {t : Text}

def declarator : Pattern :=
  either (text "function" ++ wordEdge) (either (text "class" ++ wordEdge)
    (either (text "async" ++ wordEdge) (text "abstract" ++ wordEdge)))

theorem exportVariablePattern_eq_none (ht : Text.Halts Text.isBlank (t ++ rest))
    (h : ∀ w ∈ [("const" : Text), "let", "var"], Text.clashes w t = true) :
    exportVariablePattern.first? ⟨before, ("export" : Text) ++ ' ' :: (t ++ rest)⟩ = none := by
  refine Option.eq_none_iff_forall_ne_some.2 fun m hm => ?_
  simp only [exportVariablePattern, first?, run_append] at hm
  obtain ⟨_, hm⟩ := run_wordEdge_eq_some hm
  rw [run_text_append, run_some_cons (by decide) ht,
    among_binder _ _ _ _ fun w hw => run_text_of_clashes (h w hw)] at hm
  cases hm

theorem exportDefaultPattern_eq_none (ht : Text.Halts Text.isBlank (t ++ rest))
    (h : ∀ (b : List Char) (m : Marks),
      ∃ w, declarator.run ⟨b, t ++ rest⟩ m (fun c m => Option.some (c, m)) = Option.some w) :
    exportDefaultPattern.first?
      ⟨before, ("export" : Text) ++ ' ' :: (("default" : Text) ++ ' ' :: (t ++ rest))⟩ = none := by
  refine Option.eq_none_iff_forall_ne_some.2 fun m hm => ?_
  simp only [exportDefaultPattern, first?, run_append] at hm
  obtain ⟨_, hm⟩ := run_wordEdge_eq_some hm
  obtain ⟨w, hw⟩ := h (' ' :: (("default" : Text).reverse ++ ' ' :: (("export" : Text).reverse ++ before))) []
  have hgap : Text.Halts Text.isBlank (("default" : Text) ++ ' ' :: (t ++ rest)) :=
    Text.halts_cons.2 (by decide)
  rw [run_text_append, run_some_cons (by decide) hgap, run_text_append, run_some_cons (by decide) ht] at hm
  exact absurd (hm.symm.trans (run_unless_eq_none hw)) (by simp)

structure Leads (t : Text) : Prop where
  avoids : Text.avoids ["export"] t = true
  unbound : ∀ w ∈ [("const" : Text), "let", "var"], Text.clashes w t = true
  halts : ∀ rest, Text.Halts Text.isBlank (t ++ rest)
  declares : Text.clashes "default" t = true ∨ ∃ u, t = ("default" : Text) ++ ' ' :: u ∧
    ∀ rest, Text.Halts Text.isBlank (u ++ rest) ∧ ∀ (b : List Char) (m : Marks),
      ∃ w, declarator.run ⟨b, u ++ rest⟩ m (fun c m => Option.some (c, m)) = Option.some w

theorem idle_word_export (ha : a.Opens ["export"]) (hs : Text.avoids ["export"] s = true)
    (h : a.first? ⟨before, ("export" : Text) ++ ' ' :: (s ++ rest)⟩ = none) (isExported : Bool) :
    a.Idle before (word isExported "export" ++ s) rest := by
  cases isExported with
  | false => exact ha.idle hs
  | true =>
    have htail : Text.avoids ["export"] ['x', 'p', 'o', 'r', 't', ' '] = true := by decide
    exact ⟨h, idle_append.2 ⟨ha.idle htail, ha.idle hs⟩⟩

theorem Leads.idle_exportVariable (ht : Leads t) (isExported : Bool) (rest : Text) :
    exportVariablePattern.Idle before (word isExported "export" ++ t) rest :=
  idle_word_export exportVariablePattern_opens ht.avoids
    (exportVariablePattern_eq_none (ht.halts rest) ht.unbound) isExported

theorem Leads.idle_exportDefault (ht : Leads t) (isExported : Bool) (rest : Text) :
    exportDefaultPattern.Idle before (word isExported "export" ++ t) rest := by
  refine idle_word_export exportDefaultPattern_opens ht.avoids ?_ isExported
  rcases ht.declares with h | ⟨u, rfl, h⟩
  · refine Option.eq_none_iff_forall_ne_some.2 fun m hm => ?_
    simp only [exportDefaultPattern, first?, run_append] at hm
    obtain ⟨_, hm⟩ := run_wordEdge_eq_some hm
    rw [run_text_append, run_some_cons (by decide) (ht.halts rest), run_text_of_clashes h] at hm
    cases hm
  · obtain ⟨hhalts, hdeclares⟩ := h rest
    rw [List.append_assoc]
    exact exportDefaultPattern_eq_none hhalts hdeclares

end Exports

section Heads

variable (f : FunctionHead) (c : ClassHead)

def closing : Text := ['\n', '}', '\n']

def FunctionHead.lead : Text := word f.isDefault "default" ++ (word f.isAsync "async" ++ f.keyword)

def ClassHead.lead : Text := word c.isDefault "default" ++ (word c.isAbstract "abstract" ++ "class ")

theorem FunctionHead.leads : Leads f.lead := by
  obtain ⟨_, isDefault, isAsync, isGenerator, _, _, _⟩ := f
  have havoids : ∀ d a g : Bool, Text.avoids ["export"] (word d "default" ++ (word a "async" ++
      Text.concat ["function", if g then ['*'] else [], [' ']])) = true := by decide
  have hunbound : ∀ d a g : Bool, ∀ w ∈ [("const" : Text), "let", "var"],
      Text.clashes w (word d "default" ++ (word a "async" ++
        Text.concat ["function", if g then ['*'] else [], [' ']])) = true := by decide
  refine ⟨havoids _ _ _, hunbound _ _ _, fun rest => ?_, ?_⟩
  · cases isDefault <;> cases isAsync <;> exact Text.halts_cons.2 (by decide)
  · cases isDefault with
    | false =>
      left
      cases isAsync <;> cases isGenerator <;> rfl
    | true =>
      refine .inr ⟨_, rfl, fun rest => ⟨?_, fun b m => ?_⟩⟩
      · cases isAsync <;> exact Text.halts_cons.2 (by decide)
      · cases isAsync <;> cases isGenerator <;> exact ⟨_, rfl⟩

theorem ClassHead.leads : Leads c.lead := by
  obtain ⟨_, isDefault, isAbstract, _, _, _, _⟩ := c
  have havoids : ∀ d a : Bool, Text.avoids ["export"]
      (word d "default" ++ (word a "abstract" ++ "class ")) = true := by decide
  have hunbound : ∀ d a : Bool, ∀ w ∈ [("const" : Text), "let", "var"],
      Text.clashes w (word d "default" ++ (word a "abstract" ++ "class ")) = true := by decide
  refine ⟨havoids _ _, hunbound _ _, fun rest => ?_, ?_⟩
  · cases isDefault <;> cases isAbstract <;> exact Text.halts_cons.2 (by decide)
  · cases isDefault with
    | false =>
      left
      cases isAbstract <;> rfl
    | true =>
      refine .inr ⟨_, rfl, fun rest => ⟨?_, fun b m => ?_⟩⟩
      · cases isAbstract <;> exact Text.halts_cons.2 (by decide)
      · cases isAbstract <;> exact ⟨_, rfl⟩

theorem FunctionHead.getLast?_signature : f.signature.getLast? = Option.some '{' := by
  simp only [FunctionHead.signature, Text.concat_cons, List.getLast?_append]
  rfl

theorem ClassHead.getLast?_signature : c.signature.getLast? = Option.some '{' := by
  simp only [c.signature_eq, List.getLast?_append]
  rfl

end Heads

section Functions

variable (f : FunctionHead)

namespace FunctionHead

theorem avoids_lead : Text.avoids ["class", "const", "let", "var"]
    (word f.isExported "export" ++ f.lead) = true := by
  obtain ⟨isExported, isDefault, isAsync, isGenerator, _, _, _⟩ := f
  have havoids : ∀ e d a g : Bool, Text.avoids ["class", "const", "let", "var"]
      (word e "export" ++ (word d "default" ++ (word a "async" ++
        Text.concat ["function", if g then ['*'] else [], [' ']]))) = true := by decide
  exact havoids _ _ _ _

theorem idle_class_signature : classPattern.Idle before f.signature rest := by
  simp only [classPattern, idle_append_assoc]
  exact idle_of_clear (among_text _) ((shuns_ident (by decide) _).inside _ _) (by decide)
    (f.clear_signature fun _ h => h) f.getLast?_signature (by decide) (by decide)

theorem idle_arrow_signature : arrowPattern.Idle before f.signature rest := by
  simp only [arrowPattern, idle_append_assoc]
  exact idle_of_clear among_binder ((shuns_ident (by decide) _).inside _ _) (by decide)
    (f.clear_signature fun _ h => h) f.getLast?_signature (by decide) (by decide)

theorem idle_exportVariable_signature : exportVariablePattern.Idle before f.signature rest := by
  simp only [exportVariablePattern, idle_append_assoc]
  exact idle_of_clear (among_text _) ((among_binder.shuns (by decide)).inside _ _) (by decide)
    (f.clear_signature fun _ h => h) f.getLast?_signature (by decide) (by decide)

theorem idle_exportDefault_signature : exportDefaultPattern.Idle before f.signature rest := by
  simp only [exportDefaultPattern, idle_append_assoc]
  exact idle_of_clear (among_text _) (((among_text _).shuns (by decide)).inside _ _) (by decide)
    (f.clear_signature fun _ h => h) f.getLast?_signature (by decide) (by decide)

end FunctionHead

end Functions

section Classes

variable (c : ClassHead)

namespace ClassHead

theorem avoids_lead : Text.avoids ["function", "const", "let", "var"]
    (word c.isExported "export" ++ c.lead) = true := by
  obtain ⟨isExported, isDefault, isAbstract, _, _, _, _⟩ := c
  have havoids : ∀ e d a : Bool, Text.avoids ["function", "const", "let", "var"]
      (word e "export" ++ (word d "default" ++ (word a "abstract" ++ "class "))) = true := by decide
  exact havoids _ _ _

theorem idle_function_signature : functionPattern.Idle before c.signature rest := by
  have hopen : '(' ∉ c.signature :=
    c.not_mem_signature (by decide) (by decide) (by decide) (by decide)
  rw [functionPattern, idle_append_assoc, idle_append_assoc, idle_append_assoc]
  refine idle_of_within ?_ c.getLast?_signature ?_
  · have hblanks : blanks.Within (Text.noneOf ['{']) := within_blanks (by decide)
    exact ⟨⟨⟨⟨⟨⟨⟨⟨trivial, within_text (by decide)⟩, trivial⟩, hblanks⟩,
      ⟨within_text (by decide), within_text (by decide)⟩⟩, hblanks⟩, within_identifier (by decide)⟩,
      hblanks⟩, within_typeArguments (by decide) (by decide) (by decide)⟩
  · intro β d m k x hx hmem
    rw [run_append, parameterList, run_append, run_append]
    exact run_char_eq_none fun h => hopen (Option.some.inj (hx.symm.trans h) ▸ hmem)

theorem idle_arrow_signature : arrowPattern.Idle before c.signature rest := by
  have hcolon : ':' ∉ c.signature :=
    c.not_mem_signature (by decide) (by decide) (by decide) (by decide)
  have hequals : '=' ∉ c.signature :=
    c.not_mem_signature (by decide) (by decide) (by decide) (by decide)
  simp only [arrowPattern, idle_append_assoc]
  refine idle_append_assoc.1 (idle_append_assoc.1 (idle_append_assoc.1 (idle_append_assoc.1
    (idle_of_within ?_ c.getLast?_signature ?_))))
  · exact ⟨⟨⟨⟨trivial, within_binder (by decide)⟩, within_gap (by decide)⟩,
      within_identifier (by decide)⟩, within_blanks (by decide)⟩
  · intro β d m k x hx hmem
    rw [run_append]
    refine run_optional_eq_none ?_ ?_
    · rw [run_append]
      exact run_char_eq_none fun h => hcolon (Option.some.inj (hx.symm.trans h) ▸ hmem)
    · rw [run_append]
      exact run_char_eq_none fun h => hequals (Option.some.inj (hx.symm.trans h) ▸ hmem)

section Exports

theorem beq_of_not_isIdentPart (c : Char) (hc : isIdentPart c = false) : (c == 't') = false := by
  simpa using fun h : c = 't' => absurd (h ▸ hc) (by decide)

theorem idle_exportVariable_signature : exportVariablePattern.Idle before c.signature rest := by
  simp only [exportVariablePattern, idle_append_assoc]
  exact idle_of_clear (p := (· == 't')) (among_text _)
    ((among_binder.shuns (by decide)).inside _ _) (by decide)
    (c.clear_signature beq_of_not_isIdentPart (by decide)) c.getLast?_signature (by decide) (by decide)

theorem idle_exportDefault_signature : exportDefaultPattern.Idle before c.signature rest := by
  simp only [exportDefaultPattern, idle_append_assoc]
  exact idle_of_clear (p := (· == 't')) (among_text _)
    (((among_text _).shuns (by decide)).inside _ _) (by decide)
    (c.clear_signature beq_of_not_isIdentPart (by decide)) c.getLast?_signature (by decide) (by decide)

end Exports

end ClassHead

end Classes

end CodeAtlas.Script
