import CodeAtlas.Proofs.Pipeline.Sections
import CodeAtlas.Proofs.Service.Quotation
import CodeAtlas.Proofs.Text.Lines

/-!
What the section of the selected files says about them. A content stands between fences as it is,
so that one that holds a fence and the heading of the next block reads like two blocks. Main
statement: this is the only way in which two lists of files are shown alike. At the first place
where they differ, a content of one list takes in the block of the other and the beginning of the
block that follows it.
-/

set_option autoImplicit false

namespace CodeAtlas

namespace Text

/-- A delimiter is found where it was put, or else a whole one stands before it. What follows it must
not go on like a part of it. -/
theorem delimiter_cases {d u r s : Text} (hr : ∀ x ∈ r.head?, x ∉ d)
    (h : d ++ r = u ++ (d ++ s)) : u = [] ∨ ∃ w, u = d ++ w ∧ r = w ++ (d ++ s) := by
  rcases List.append_eq_append_iff.1 h with ⟨w, hu, hw⟩ | ⟨v, hd, hv⟩
  · exact .inr ⟨w, hu, hw⟩
  · -- The second delimiter begins inside the first, so what is left of it begins the rest.
    left
    rcases List.append_eq_append_iff.1 hv with ⟨z, hvz, -⟩ | ⟨z, hdz, hz⟩
    · have hlength := congrArg List.length hd
      rw [hvz] at hlength
      simp only [List.length_append] at hlength
      exact List.eq_nil_of_length_eq_zero (by omega)
    · cases z with
      | nil =>
        rw [List.append_nil] at hdz
        rw [← hdz] at hd
        exact List.self_eq_append_left.1 hd
      | cons x z =>
        rw [hz] at hr
        exact absurd (by rw [hdz]; simp) (hr x rfl)

/-- Two contents before one delimiter are the same, or one of them runs on over the delimiter of
the other. -/
theorem content_cases {d a b r s : Text} (hr : ∀ x ∈ r.head?, x ∉ d) (hs : ∀ x ∈ s.head?, x ∉ d)
    (h : a ++ (d ++ r) = b ++ (d ++ s)) :
    (a = b ∧ r = s) ∨ (∃ w, b = a ++ (d ++ w) ∧ r = w ++ (d ++ s)) ∨
      ∃ w, a = b ++ (d ++ w) ∧ s = w ++ (d ++ r) := by
  have hsame : a = b → r = s := fun hab => by
    rw [hab] at h
    exact List.append_cancel_left (List.append_cancel_left h)
  rcases List.append_eq_append_iff.1 h with ⟨u, hb, hu⟩ | ⟨u, ha, hu⟩
  · rcases delimiter_cases hr hu with rfl | ⟨w, rfl, hw⟩
    · have hab : a = b := by rw [hb, List.append_nil]
      exact .inl ⟨hab, hsame hab⟩
    · exact .inr (.inl ⟨w, hb, hw⟩)
  · rcases delimiter_cases hs hu with rfl | ⟨w, rfl, hw⟩
    · have hab : a = b := by rw [ha, List.append_nil]
      exact .inl ⟨hab, hsame hab⟩
    · exact .inr (.inr ⟨w, ha, hw⟩)

end Text

structure Chunk.Plain (c : Chunk) : Prop where
  content : c.content ≠ []
  path : c.path.OneLine
  language : c.language.OneLine

namespace Prompt

def fence : Text := "\n```\n\n"

def title (number : Nat) : Text := Text.concat ["### Context ", Text.ofNat number]

def opening (number : Nat) : Text := Text.concat [title number, "\nFile: "]

def body (c : Chunk) : Text := Text.concat ["\n```", c.language, "\n", c.content]

theorem block_eq (number : Nat) (c : Chunk) :
    block number c = opening number ++ (c.path ++ (body c ++ fence)) := by
  simp only [block, opening, title, body, Text.concat_cons, Text.concat_nil, List.append_nil,
    List.append_assoc]
  rfl

theorem blocks_cons (number : Nat) (c : Chunk) (rest : List Chunk) :
    blocks number (c :: rest) =
      opening number ++ (c.path ++ (body c ++ (fence ++ blocks (number + 1) rest))) := by
  rw [blocks, block_eq]
  simp only [List.append_assoc]

theorem blocks_append (number : Nat) (front rest : List Chunk) :
    blocks number (front ++ rest) = blocks number front ++ blocks (number + front.length) rest := by
  induction front generalizing number with
  | nil => rfl
  | cons c front ih =>
    rw [List.cons_append, blocks, blocks, ih, List.append_assoc, List.length_cons,
      Nat.add_assoc number 1, Nat.add_comm 1]

theorem head?_blocks (number : Nat) (chunks : List Chunk) :
    ∀ x ∈ (blocks number chunks).head?, x ∉ fence := by
  cases chunks with
  | nil => simp [blocks]
  | cons c rest =>
    intro x hx
    rw [blocks_cons] at hx
    obtain rfl : '#' = x := Option.some.inj hx
    decide

theorem oneLine_labelled {label t : Text} (hlabel : label.OneLine) (ht : t.OneLine) :
    (Text.concat [label, t]).OneLine := by
  rw [Text.oneLine_concat, List.forall_mem_cons]
  exact ⟨hlabel, by simpa using ht⟩

theorem oneLine_title (number : Nat) : (title number).OneLine :=
  oneLine_labelled (by decide) (Text.not_mem_ofNat rfl number)

theorem blocks_cons_ne_nil (number : Nat) (c : Chunk) (rest : List Chunk) :
    blocks number (c :: rest) ≠ [] := by
  rw [blocks_cons]
  exact List.cons_ne_nil _ _

theorem body_append (c : Chunk) (t : Text) :
    body c ++ t = '\n' :: (Text.concat ["```", c.language] ++ '\n' :: (c.content ++ t)) := by
  simp only [body, Text.concat_cons, Text.concat_nil, List.append_nil, List.append_assoc]
  rfl

theorem opening_append (number : Nat) (path : Text) :
    opening number ++ path = title number ++ '\n' :: Text.concat ["File: ", path] := by
  simp only [opening, Text.concat_cons, Text.concat_nil, List.append_nil, List.append_assoc]
  rfl

theorem opening_prefix {number : Nat} {c : Chunk} {rest : List Chunk} {w s : Text}
    (hpath : c.path.OneLine) (h : blocks number (c :: rest) = w ++ (fence ++ s)) :
    opening number ++ c.path <+: w := by
  have hline := oneLine_labelled (show Text.OneLine "File: " by decide) hpath
  rw [blocks_cons, ← List.append_assoc, opening_append, List.append_assoc] at h
  rw [opening_append]
  rcases Text.append_cons_cases (oneLine_title number) h with ⟨-, hfile⟩ | ⟨v, rfl, hv⟩
  · cases hfile
  · rcases Text.append_cons_cases hline hv with ⟨rfl, -⟩ | ⟨t, rfl, -⟩
    · exact List.prefix_rfl
    · exact ⟨'\n' :: t, by simp only [List.append_assoc, List.cons_append]⟩

/-- At the first place where two lists of files differ, numbered from a number on, the second has a
file whose content runs on over the fence of the first and over the heading of its next block. -/
inductive RunsOn : Nat → List Chunk → List Chunk → Prop
  | here {number : Nat} {a next b : Chunk} {as bs : List Chunk} (path : a.path = b.path)
      (language : a.language = b.language)
      (content : a.content ++ (fence ++ (opening (number + 1) ++ next.path)) <+: b.content) :
      RunsOn number (a :: next :: as) (b :: bs)
  | later {number : Nat} (c : Chunk) {as bs : List Chunk} (rest : RunsOn (number + 1) as bs) :
      RunsOn number (c :: as) (c :: bs)

/-- No content holds a fence and the heading of the block that follows. -/
def Contained : Nat → List Chunk → Prop
  | _, [] => True
  | number, c :: rest => ¬ fence ++ opening (number + 1) <:+: c.content ∧ Contained (number + 1) rest

theorem RunsOn.not_contained {number : Nat} {xs ys : List Chunk} (h : RunsOn number xs ys) :
    ¬ Contained number ys := by
  induction h with
  | here path language content =>
    rintro ⟨hnone, -⟩
    rw [← List.append_assoc fence, ← List.append_assoc] at content
    exact hnone (((List.suffix_append ..).isInfix.trans (List.prefix_append ..).isInfix).trans
      content.isInfix)
  | later c rest ih => exact fun hcontained => ih hcontained.2

theorem runsOn_of_append {number : Nat} {a b : Chunk} {as bs : List Chunk} {w s : Text}
    (hpath : a.path = b.path) (hlanguage : a.language = b.language) (has : ∀ c ∈ as, c.Plain)
    (hcontent : b.content = a.content ++ (fence ++ w))
    (hrest : blocks (number + 1) as = w ++ (fence ++ s)) : RunsOn number (a :: as) (b :: bs) := by
  cases as with
  | nil => cases w <;> cases hrest
  | cons next as =>
    obtain ⟨t, rfl⟩ := opening_prefix (has next (.head _)).path hrest
    refine .here hpath hlanguage ⟨t, ?_⟩
    rw [hcontent]
    simp only [List.append_assoc]

/-- Blocks that read alike are blocks of the same files, or a content runs on. -/
theorem blocks_cases {number : Nat} {xs ys : List Chunk} (hx : ∀ c ∈ xs, c.Plain)
    (hy : ∀ c ∈ ys, c.Plain) (h : blocks number xs = blocks number ys) :
    xs = ys ∨ RunsOn number xs ys ∨ RunsOn number ys xs := by
  induction xs generalizing number ys with
  | nil =>
    cases ys with
    | nil => exact .inl rfl
    | cons b bs => exact absurd h.symm (blocks_cons_ne_nil number b bs)
  | cons a as ih =>
    cases ys with
    | nil => exact absurd h (blocks_cons_ne_nil number a as)
    | cons b bs =>
      have ha := hx a (.head _)
      have hb := hy b (.head _)
      have has : ∀ c ∈ as, c.Plain := fun c hc => hx c (.tail _ hc)
      have hbs : ∀ c ∈ bs, c.Plain := fun c hc => hy c (.tail _ hc)
      rw [blocks_cons, blocks_cons, body_append, body_append] at h
      obtain ⟨hpath, hrest⟩ := Text.line_inj ha.path hb.path (List.append_cancel_left h)
      obtain ⟨hmark, hrest⟩ := Text.line_inj (oneLine_labelled (by decide) ha.language)
        (oneLine_labelled (by decide) hb.language) hrest
      have hlanguage : a.language = b.language := by simpa using hmark
      rcases Text.content_cases (head?_blocks _ as) (head?_blocks _ bs) hrest with
        ⟨hcontent, hblocks⟩ | ⟨w, hcontent, hblocks⟩ | ⟨w, hcontent, hblocks⟩
      · obtain rfl : a = b := by
          cases a
          cases b
          exact Chunk.mk.injEq .. ▸ ⟨hpath, hcontent, hlanguage⟩
        rcases ih has hbs hblocks with rfl | hruns | hruns
        · exact .inl rfl
        · exact .inr (.inl (.later a hruns))
        · exact .inr (.inr (.later a hruns))
      · exact .inr (.inl (runsOn_of_append hpath hlanguage has hcontent hblocks))
      · exact .inr (.inr (runsOn_of_append hpath.symm hlanguage.symm hbs hcontent hblocks))

theorem excerpts_of_plain {chunks : List Chunk} (hne : chunks ≠ []) (h : ∀ c ∈ chunks, c.Plain) :
    excerpts chunks = ("\n## Related Code Context\n\n" : Text) ++ blocks 1 chunks := by
  rw [excerpts_of_filled fun c hc => (h c hc).content, display, if_neg hne, ← blocks_eq,
    Text.concat_cons, Text.concat_cons, Text.concat_nil, List.append_nil]

theorem excerpts_ne_nil {chunks : List Chunk} (hne : chunks ≠ []) (h : ∀ c ∈ chunks, c.Plain) :
    excerpts chunks ≠ [] := by
  rw [excerpts_of_plain hne h]
  exact List.cons_ne_nil _ _

/-- One file that is shown like two: its content is that of the first, a fence, and the block of the
second up to its content. -/
def merged (number : Nat) (a b : Chunk) : Chunk :=
  { a with content := a.content ++ (fence ++ (opening number ++ (b.path ++ body b))) }

theorem blocks_merged (number : Nat) (a b : Chunk) :
    blocks number [merged (number + 1) a b] = blocks number [a, b] := by
  rw [blocks_cons, blocks_cons, blocks_cons, body_append, body_append]
  simp only [merged, blocks, List.append_assoc, List.append_nil]

theorem plain_merged {a : Chunk} (h : a.Plain) (number : Nat) (b : Chunk) :
    (merged number a b).Plain :=
  ⟨by simp [merged, h.content], h.path, h.language⟩

/-- The last two files of any list are shown like one. -/
theorem excerpts_merged {front : List Chunk} {a b : Chunk} (h : ∀ c ∈ front ++ [a, b], c.Plain) :
    excerpts (front ++ [merged (front.length + 2) a b]) = excerpts (front ++ [a, b]) := by
  have hmerged : ∀ c ∈ front ++ [merged (front.length + 2) a b], c.Plain := by
    intro c hc
    rcases List.mem_append.1 hc with hc | hc
    · exact h c (List.mem_append_left _ hc)
    · rw [List.mem_singleton.1 hc]
      exact plain_merged (h a (by simp)) _ b
  rw [excerpts_of_plain (by simp) h, excerpts_of_plain (by simp) hmerged, blocks_append,
    blocks_append, Nat.add_comm 1, ← blocks_merged]

/-- Lists of files that are shown alike are the same, unless a content runs on over its fence and
the heading of a further block. -/
theorem excerpts_inj {xs ys : List Chunk} (hx : ∀ c ∈ xs, c.Plain) (hy : ∀ c ∈ ys, c.Plain)
    (h : excerpts xs = excerpts ys) :
    (xs = ys ∨ RunsOn 1 xs ys ∨ RunsOn 1 ys xs) ∧
      (Contained 1 xs → Contained 1 ys → xs = ys) := by
  have hcases : xs = ys ∨ RunsOn 1 xs ys ∨ RunsOn 1 ys xs := by
    cases xs with
    | nil =>
      cases ys with
      | nil => exact .inl rfl
      | cons b bs => exact absurd h.symm (excerpts_ne_nil (List.cons_ne_nil b bs) hy)
    | cons a as =>
      cases ys with
      | nil => exact absurd h (excerpts_ne_nil (List.cons_ne_nil a as) hx)
      | cons b bs =>
        rw [excerpts_of_plain (List.cons_ne_nil a as) hx,
          excerpts_of_plain (List.cons_ne_nil b bs) hy] at h
        exact blocks_cases hx hy (List.append_cancel_left h)
  refine ⟨hcases, fun hxs hys => ?_⟩
  rcases hcases with hsame | hruns | hruns
  · exact hsame
  · exact absurd hys hruns.not_contained
  · exact absurd hxs hruns.not_contained

def pairSample : List Chunk := [⟨"a.py", "x", "python"⟩, ⟨"b.py", "y", "python"⟩]

def mergedSample : List Chunk :=
  [⟨"a.py", "x\n```\n\n### Context 2\nFile: b.py\n```python\ny", "python"⟩]

theorem plain_pairSample : ∀ c ∈ pairSample, c.Plain := by
  simp only [pairSample, List.forall_mem_cons]
  exact ⟨⟨by decide, by decide, by decide⟩, ⟨by decide, by decide, by decide⟩, by simp⟩

theorem mergedSample_eq :
    mergedSample = [merged 2 ⟨"a.py", "x", "python"⟩ ⟨"b.py", "y", "python"⟩] := by
  decide +kernel

theorem plain_mergedSample : ∀ c ∈ mergedSample, c.Plain := by
  simp only [mergedSample, List.forall_mem_cons]
  exact ⟨⟨by decide, by decide, by decide⟩, by simp⟩

theorem excerpts_mergedSample : excerpts pairSample = excerpts mergedSample := by
  rw [mergedSample_eq]
  have hplain : ∀ c ∈ [] ++ pairSample, c.Plain := plain_pairSample
  exact (excerpts_merged hplain).symm

/-- The content of the one file runs on over the block of the first of the two. -/
theorem excerpts_inj_mergedSample :
    (∀ c ∈ pairSample, c.Plain) ∧ (∀ c ∈ mergedSample, c.Plain) ∧
    excerpts pairSample = excerpts mergedSample ∧
    (RunsOn 1 pairSample mergedSample ∨ RunsOn 1 mergedSample pairSample) := by
  refine ⟨plain_pairSample, plain_mergedSample, excerpts_mergedSample, ?_⟩
  exact (excerpts_inj plain_pairSample plain_mergedSample excerpts_mergedSample).1.resolve_left
    (by decide)

/-- Two lists that are shown alike, with contents, and with neither line breaks nor marks of fences
in paths and languages. -/
theorem not_excerpts_injective :
    (∀ c ∈ pairSample ++ mergedSample, c.content ≠ [] ∧
      ∀ x ∈ ("\n`" : Text), x ∉ c.path ∧ x ∉ c.language) ∧
    excerpts pairSample = excerpts mergedSample ∧ pairSample ≠ mergedSample :=
  ⟨by decide, excerpts_mergedSample, by decide⟩

end Prompt

end CodeAtlas
