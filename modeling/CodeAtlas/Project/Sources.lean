import CodeAtlas.Project.FileTree
import CodeAtlas.Source.Basic
import CodeAtlas.Source.Language
import CodeAtlas.Text.Utf8

set_option autoImplicit false

namespace CodeAtlas.Project

def skippedDirectories : List Text :=
  [".venv", "venv", "__pycache__", "node_modules", ".git", "site-packages", ".tox",
   ".pytest_cache", "build", "dist", ".mypy_cache", ".ruff_cache", "htmlcov", ".eggs", ".next",
   "coverage", ".docgraph"]

def standardLimit : Int := 512000

/-- Segments come in the order of the first of them that differs. -/
def precedes (a b : List Text) : Bool := decide (¬ b < a)

def languageOf? (name : Text) : Option Text := Language.byExtension.lookup (Path.suffix name)

def source? (limit : Int) (segments : List Text) (bytes : List UInt8) : Option SourceFile :=
  match languageOf? (segments.getLastD []) with
  | none => none
  | some language =>
    if segments.any (· ∈ skippedDirectories) || limit < bytes.length then none
    else some ⟨Text.joinWith ['/'] segments, language, Text.unifyLines (Text.ofBytes bytes)⟩

def sources (limit : Int) (t : FileTree) (directory : List Text) : List SourceFile :=
  ((t.filesBelow directory).mergeSort fun a b => precedes a.1 b.1).filterMap
    fun (segments, bytes) => source? limit segments bytes

theorem length_le_of_source? {limit : Int} {segments : List Text} {bytes : List UInt8}
    {f : SourceFile} (h : source? limit segments bytes = some f) : bytes.length ≤ limit := by
  unfold source? at h
  split at h
  · simp at h
  · split at h
    · simp at h
    · rename_i hn
      simp only [Bool.or_eq_true, not_or] at hn
      have := hn.2
      simp only [decide_eq_true_eq] at this
      omega

theorem exists_of_mem_sources {limit : Int} {t : FileTree} {directory : List Text}
    {f : SourceFile} (h : f ∈ sources limit t directory) :
    ∃ segments bytes, (segments, bytes) ∈ t.filesBelow directory
      ∧ source? limit segments bytes = some f := by
  obtain ⟨⟨segments, bytes⟩, hm, hs⟩ := List.mem_filterMap.1 h
  exact ⟨segments, bytes, List.mem_mergeSort.1 hm, hs⟩

end CodeAtlas.Project
