import CodeAtlas.Proofs.Pipeline.Runs

set_option autoImplicit false

namespace CodeAtlas

namespace Prompt

def part (title : Text) (lines : List Text) : Text :=
  if lines = [] then []
  else Text.concat [title, "\n", Text.concat (lines.map fun line => line ++ ['\n']), "\n"]

def extension (parent : Text) : Text := if parent = [] then [] else " extends " ++ parent

/-- The section about the structure of some files, which ends with the insights. -/
def structureSection (files : List SourceFile) : Text :=
  let ⟨c, _, insights⟩ := Analysis.ofFiles files
  Text.concat ["## Code Structure\n\n",
    part "### Files Analyzed" (c.files.map fun f => Text.concat ["- ", f.path, " (", f.language, ")"]),
    part "### Functions" (c.files.flatMap fun f => f.functions.map fun g =>
      Text.concat ["- ", g.signature, " [", f.path, "]"]),
    part "### Classes" (c.files.flatMap fun f => f.classes.map fun k =>
      Text.concat ["- ", k.name, extension (k.parent.getD []), " [", f.path, "]"]),
    part "### Dependencies" (c.dependencies.map fun d =>
      Text.concat ["- ", d.importer, " → ", d.target, " (", d.link.label, ")"]),
    part "### Key Insights"
      ((if insights.keyComponents = [] then []
        else [Text.concat ["Exported components: ", Text.joinWith ", " insights.keyComponents]]) ++
      if insights.criticalPaths = [] then []
      else [Text.concat ["Most depended-upon files: ", Text.joinWith ", " insights.criticalPaths]])]

/-- The section that shows exactly some chunks: each with its number, its path, its language behind
the first fence, and its content as it is between the fences. -/
def display (chunks : List Chunk) : Text :=
  if chunks = [] then []
  else Text.concat ["\n## Related Code Context\n\n",
    Text.concat ((chunks.zipIdx 1).map fun (chunk, number) =>
      Text.concat ["### Context ", Text.ofNat number, "\nFile: ", chunk.path, "\n```",
        chunk.language, "\n", chunk.content, "\n```\n\n"])]

theorem unlines_append (ls more : List Text) : unlines (ls ++ more) = unlines ls ++ unlines more :=
  List.flatMap_append

theorem unlines_titled (title : Text) (lines : List Text) :
    unlines (titled title lines) = part title lines := by
  cases lines with
  | nil => rfl
  | cons line rest => simp [titled, part, unlines, Text.concat, List.flatMap]

theorem row_eq (label : Text) (names : List Text) :
    row label names =
      if names = [] then [] else [Text.concat [label, Text.joinWith ", " names]] := by
  cases names with
  | nil => rfl
  | cons name rest => simp [row]

theorem parentNote_eq (k : ClassRecord) : parentNote k = extension (k.parent.getD []) := by
  simp only [parentNote, extension, List.isEmpty_iff]

theorem structureSection_eq (files : List SourceFile) :
    structureSection files = Text.concat ["## Code Structure\n\n",
      describe (Codebase.ofFiles files) (some (Analysis.ofFiles files).insights)] := by
  rw [describe, structureLines]
  simp only [unlines_append, unlines_titled, insightLines, row_eq]
  simp only [structureSection, ← parentNote_eq, Text.concat_cons, Text.concat_nil, List.append_assoc,
    List.append_nil]
  rfl

theorem blocks_eq (number : Nat) (chunks : List Chunk) :
    blocks number chunks = Text.concat ((chunks.zipIdx number).map fun (chunk, number) =>
      Text.concat ["### Context ", Text.ofNat number, "\nFile: ", chunk.path, "\n```",
        chunk.language, "\n", chunk.content, "\n```\n\n"]) := by
  induction chunks generalizing number with
  | nil => rfl
  | cons chunk rest ih => rw [blocks, ih, List.zipIdx_cons, List.map_cons, Text.concat_cons, block]

theorem excerpts_of_filled {chunks : List Chunk} (h : ∀ chunk ∈ chunks, chunk.content ≠ []) :
    excerpts chunks = display chunks := by
  have hfilter : (chunks.filter fun chunk => !chunk.content.isEmpty) = chunks := by
    rw [List.filter_eq_self]
    intro chunk hchunk
    simpa using h chunk hchunk
  simp only [excerpts, display, hfilter, blocks_eq, List.isEmpty_iff, Text.concat_cons,
    Text.concat_nil, List.append_nil]

end Prompt

namespace Pipeline

variable {σ : Type}

theorem prompt_eq (p : Pipeline σ) (ctx : Context) (files : List SourceFile) :
    p.prompt ctx files = Text.concat [Prompt.preamble, Prompt.heading ctx.scope ctx.target,
      Prompt.structureSection files, Prompt.display (p.context ctx files),
      Prompt.requirements] := by
  have hfilled : ∀ chunk ∈ p.context ctx files, chunk.content ≠ [] :=
    fun chunk hchunk => Retrieval.content_ne_nil_of_mem_hydrate hchunk
  have hcodebase : (Analysis.ofFiles files).codebase = Codebase.ofFiles files := rfl
  rw [prompt, Prompt.write, Prompt.structureSection_eq, Prompt.excerpts_of_filled hfilled,
    hcodebase]
  simp only [Text.concat_cons, Text.concat_nil, List.append_assoc, List.append_nil]

end Pipeline

end CodeAtlas
