import CodeAtlas.Proofs.Codebase.Modules
import CodeAtlas.Proofs.Pipeline.Outcome

set_option autoImplicit false

namespace CodeAtlas

namespace Pipeline

variable {σ : Type}

theorem metadata_of_execute {p : Pipeline σ} {ctx : Context} {items : List SourceItem}
    {s : Session σ} {doc : Documentation} (h : ((p.execute ctx items).exec s).1 = .ok doc) :
    ∃ files, SourceItem.readAll items = .ok files ∧ doc.metadata = metadata files (milliseconds s) := by
  cases hread : SourceItem.readAll items with
  | error fault =>
    rw [exec_execute_unread p ctx hread s] at h
    cases h
  | ok files =>
    refine ⟨files, rfl, ?_⟩
    by_cases hne : items = []
    · subst hne
      rw [exec_execute_nil p ctx s] at h
      cases h
    · rw [p.exec_execute ctx hread (SourceItem.ne_nil_of_readAll hread hne) s rfl] at h
      cases hout : Reply.outcome
          (p.client.generate (p.prompt ctx files) p.maxOutputTokens s.service).1 with
      | ok produced =>
        rw [hout] at h
        cases h
        rfl
      | error fault =>
        rw [hout] at h
        cases h

end Pipeline

namespace Module

/-- The modules part the files by directory, the insights name them, and a run counts them. -/
theorem modules_byDirectory (parsed : List ParsedFile) :
    ByDirectory parsed (group parsed) ∧
    (∀ path dir, Path.StandsIn path dir ↔ nameOf path = dir) ∧
    (∀ g, (Insights.of (Codebase.ofParsed parsed) g).modules = (group parsed).map (·.name)) ∧
    ∀ (σ : Type) (p : Pipeline σ) (ctx : Context) (items : List SourceItem) (s : Session σ)
      (doc : Documentation), ((p.execute ctx items).exec s).1 = .ok doc →
      ∃ files, SourceItem.readAll items = .ok files ∧
        doc.metadata.modulesDocumented = (Analysis.ofFiles files).insights.modules.length := by
  have hnames : ∀ (files : List ParsedFile) (g : Graph),
      (Insights.of (Codebase.ofParsed files) g).modules = (group files).map (·.name) :=
    fun files g => (map_name_group files).symm
  refine ⟨byDirectory_group parsed, fun _ _ => Path.standsIn_iff, hnames parsed, ?_⟩
  intro σ p ctx items s doc h
  obtain ⟨files, hread, hmetadata⟩ := Pipeline.metadata_of_execute h
  refine ⟨files, hread, ?_⟩
  calc doc.metadata.modulesDocumented
    _ = (Codebase.ofFiles files).modules.length := congrArg Metadata.modulesDocumented hmetadata
    _ = ((group (Codebase.ofFiles files).files).map (·.name)).length := List.length_map _ |>.symm
    _ = (Analysis.ofFiles files).insights.modules.length :=
      congrArg List.length (hnames _ (Graph.ofCodebase (Codebase.ofFiles files))).symm

theorem modules_byDirectory_sample :
    ∃ doc, ((Pipeline.sample.execute { requestId := "1", repositoryId := "2", userId := "3" }
        (Codebase.sampleFiles.map .file)).exec { service := () }).1 = .ok doc ∧
      doc.metadata.modulesDocumented = 2 := by
  obtain ⟨_, _, _, hcounts⟩ := modules_byDirectory []
  have hread := SourceItem.readAll_file Codebase.sampleFiles
  have hrun := Pipeline.sample.exec_execute { requestId := "1", repositoryId := "2", userId := "3" }
    hread (by simp [Codebase.sampleFiles]) { service := () } rfl
  refine ⟨_, congrArg Prod.fst hrun, ?_⟩
  obtain ⟨files, hfiles, hcount⟩ := hcounts _ _ _ _ _ _ (congrArg Prod.fst hrun)
  obtain rfl : Codebase.sampleFiles = files := Except.ok.inj (hread.symm.trans hfiles)
  exact hcount.trans (by decide +kernel)

/-- A file `index` is the entry before one `index.ts`, and one `index.d.ts` is none. -/
theorem entryPoint_group_index :
    (group [⟨"lib/index", "", [], [], [], []⟩, ⟨"lib/index.ts", "", [], [], [], []⟩]).map
      (·.entryPoint) = [some ("lib/index" : Text)] ∧
    (group [⟨"lib/index.d.ts", "", [], [], [], []⟩]).map (·.entryPoint) = [none] ∧
    ¬ ("index." : Text) <+: Path.baseName "lib/index" ∧
    ("index." : Text) <+: Path.baseName "lib/index.ts" ∧
    ("index." : Text) <+: Path.baseName "lib/index.d.ts" := by
  simp only [← List.isPrefixOf_iff_prefix]
  decide

end Module

end CodeAtlas
