import CodeAtlas.Codebase.Specifier
import Mathlib.Data.List.TakeWhile

set_option autoImplicit false

namespace CodeAtlas.Path

theorem mem_join {dir p : Text} {x : Char} (h : x ∈ p) : x ∈ join dir p := by
  unfold join
  split
  · exact h
  · split
    · exact List.mem_append_right _ h
    · exact List.mem_append_right _ (.tail _ h)

theorem normalize_ne_nil (p : Text) : normalize p ≠ [] := by
  simp only [normalize]
  split
  · simp
  · rename_i h
    simpa using h

end CodeAtlas.Path

namespace CodeAtlas.Specifier

theorem mem_of_mem_relativeCandidates {importer rest path : Text} {dots : Nat}
    (h : path ∈ relativeCandidates importer dots rest) : 'y' ∈ path := by
  simp only [relativeCandidates] at h
  split at h
  · rw [List.mem_singleton.1 h]
    exact Path.mem_join (by decide)
  · rcases List.mem_cons.1 h with rfl | h
    · exact List.mem_append_right _ (by decide)
    · rw [List.mem_singleton.1 h]
      exact Path.mem_join (by decide)

theorem ne_nil_of_mem_scriptCandidates {importer specifier path : Text}
    (h : path ∈ scriptCandidates importer specifier) : path ≠ [] := by
  have he : ∀ e ∈ scriptExtensions, e ≠ [] := by decide
  simp only [scriptCandidates, List.cons_append, List.mem_cons, List.mem_append, List.mem_map] at h
  rcases h with rfl | (⟨e, hm, rfl⟩ | h) | ⟨e, _, rfl⟩
  · exact Path.normalize_ne_nil _
  · simp [he e hm]
  · split at h
    · obtain ⟨e, hm, rfl⟩ := List.mem_map.1 h
      simp [he e hm]
    · simp at h
  · have hi : 'i' ∈ Path.join (Path.normalize (Path.join (Path.directory importer) specifier))
        (("index" : Text) ++ e) := Path.mem_join (by simp)
    exact List.ne_nil_of_mem hi

theorem resolveAbsolute_ne_nil {rest : Text} {known : List Text} :
    resolveAbsolute rest known ≠ some [] := by
  intro h
  unfold resolveAbsolute at h
  split at h
  · simp at h
  · rw [Option.orElse_eq_orElse, Option.orElse_eq_or, Option.or_eq_some_iff] at h
    rcases h with h | ⟨_, h⟩
    · have hm := List.mem_of_find?_eq_some h
      simp [absoluteCandidates] at hm
    · have hp := (only?_mem h).2
      simp [absoluteCandidates, Text.endsWith] at hp

theorem eq_nil_of_resolve {importer specifier : Text} {known : List Text}
    (h : resolve importer specifier known = some []) : specifier = [] := by
  unfold resolve at h
  split at h
  · simpa using h
  · split at h
    · simp only [resolvePython] at h
      split at h
      · exact absurd h resolveAbsolute_ne_nil
      · have hm := List.mem_of_find?_eq_some h
        obtain ⟨path, hp, hd⟩ := List.mem_map.1 hm
        have hy := List.dropWhile_eq_nil_iff.1 hd 'y' (mem_of_mem_relativeCandidates hp)
        simp at hy
    · unfold resolveScript at h
      split at h
      · exact absurd rfl (ne_nil_of_mem_scriptCandidates (List.mem_of_find?_eq_some h))
      · simp at h

end CodeAtlas.Specifier
