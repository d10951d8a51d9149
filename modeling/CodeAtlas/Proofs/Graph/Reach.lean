import CodeAtlas.Graph.Related
import Mathlib.Data.Finset.Card

set_option autoImplicit false

namespace CodeAtlas.Graph

variable {g : Graph} {file : Text}

inductive Inside (g : Graph) (file : Text) : Text → Prop where
  | start : Inside g file file
  | step {a b : Text} : Inside g file a → b ∈ g.neighbors a → g.step file b = .inside b →
      Inside g file b

theorem step_eq_inside_iff {a b : Text} :
    g.step file a = .inside b ↔
      b = a ∧ ∃ n, g.node? a = some n ∧ n.kind ≠ .file ∧ n.path = some file := by
  cases hn : g.node? a with
  | none => simp [step, hn]
  | some n =>
    by_cases hk : n.kind = .file
    · have hs : g.step file a = .file a := by simp [step, hn, hk]
      simp [hs, hk]
    · by_cases hp : n.path = some file
      · have hs : g.step file a = .inside a := by simp [step, hn, hk, hp]
        rw [hs]
        constructor
        · intro h
          exact ⟨by simpa using h.symm, n, rfl, hk, hp⟩
        · rintro ⟨rfl, _⟩
          rfl
      · have hs : g.step file a ≠ .inside b := by
          cases hpath : n.path with
          | none => simp [step, hn, hk, hpath]
          | some path =>
            by_cases hf : ¬path = [] ∧ g.isFile path = true
            · simp [step, hn, hk, hpath ▸ hp, hpath, hf]
            · simp [step, hn, hk, hpath ▸ hp, hpath, hf]
        simp [hs, hp]

theorem step_eq_file_iff {a path : Text} :
    g.step file a = .file path ↔ ∃ n, g.node? a = some n ∧
      (n.kind = .file ∧ a = path ∨
        n.kind ≠ .file ∧ n.path = some path ∧ path ≠ file ∧ path ≠ [] ∧ g.isFile path = true) := by
  cases hn : g.node? a with
  | none => simp [step, hn]
  | some n =>
    by_cases hk : n.kind = .file
    · have hs : g.step file a = .file a := by simp [step, hn, hk]
      simp [hs, hk]
    · by_cases hp : n.path = some file
      · have hs : g.step file a = .inside a := by simp [step, hn, hk, hp]
        have hne : n.path = some path → ¬ path ≠ file := by
          intro h hne
          exact hne (Option.some.inj (h.symm.trans hp))
        rw [hs]
        constructor
        · simp
        · rintro ⟨m, hm, ⟨h, _⟩ | ⟨_, h, h', _⟩⟩
          · exact absurd (Option.some.inj hm ▸ h) hk
          · exact absurd h' (hne (Option.some.inj hm ▸ h))
      · cases hpath : n.path with
        | none => simp [step, hn, hk, hpath]
        | some p =>
          have hpf : p ≠ file := fun h => hp (h ▸ hpath)
          by_cases hf : ¬p = [] ∧ g.isFile p = true
          · have hs : g.step file a = .file p := by simp [step, hn, hk, hpath, hpf, hf]
            simp only [hs, Step.file.injEq]
            constructor
            · rintro rfl
              exact ⟨n, rfl, .inr ⟨hk, hpath, hpf, hf⟩⟩
            · rintro ⟨m, hm, ⟨h, _⟩ | ⟨_, h, _⟩⟩
              · exact absurd (Option.some.inj hm ▸ h) hk
              · rw [← Option.some.inj hm, hpath] at h
                exact Option.some.inj h
          · have hs : g.step file a = .nowhere := by simp [step, hn, hk, hpath, hpf, hf]
            simp only [hs]
            constructor
            · simp
            · rintro ⟨m, hm, ⟨h, _⟩ | ⟨_, h, _, h'⟩⟩
              · exact absurd (Option.some.inj hm ▸ h) hk
              · rw [← Option.some.inj hm, hpath] at h
                exact absurd (Option.some.inj h ▸ h') hf
theorem inside?_step (a : Text) :
    (g.step file a).inside? = if g.step file a = .inside a then some a else none := by
  cases h : g.step file a with
  | inside b =>
    have hb : b = a := (step_eq_inside_iff.1 h).1
    simp [Step.inside?, hb]
  | file path => simp [Step.inside?]
  | nowhere => simp [Step.inside?]

theorem filterMap_inside? (fresh : List Text) :
    (fresh.map (g.step file)).filterMap Step.inside? =
      fresh.filter fun a => g.step file a = .inside a := by
  induction fresh with
  | nil => rfl
  | cons a rest ih =>
    rw [List.map_cons, List.filterMap_cons, inside?_step, List.filter_cons, ih]
    by_cases h : g.step file a = .inside a <;> simp [h]

theorem mem_filterMap_file? {fresh : List Text} {path : Text} :
    path ∈ (fresh.map (g.step file)).filterMap Step.file? ↔
      ∃ a ∈ fresh, g.step file a = .file path := by
  simp only [List.filterMap_map, List.mem_filterMap, Function.comp_apply]
  refine exists_congr fun a => and_congr_right fun _ => ?_
  cases g.step file a <;> simp [Step.file?]

def unseen (g : Graph) (seen : List Text) : Nat :=
  ((g.nodes.map (·.id)).toFinset \ seen.toFinset).card

theorem unseen_append {seen fresh : List Text} (hn : fresh.Nodup) (hs : ∀ a ∈ fresh, a ∉ seen) :
    g.unseen (seen ++ fresh) + (fresh.filter fun a => g.step file a = .inside a).length ≤
      g.unseen seen := by
  have hcard := List.toFinset_card_of_nodup (hn.filter fun a => g.step file a = .inside a)
  have hdis : Disjoint ((g.nodes.map (·.id)).toFinset \ (seen ++ fresh).toFinset)
      (fresh.filter fun a => g.step file a = .inside a).toFinset := by
    rw [Finset.disjoint_left]
    intro a ha hf
    have hin := (List.mem_filter.1 (List.mem_toFinset.1 hf)).1
    simp [hin] at ha
  rw [unseen, ← hcard, ← Finset.card_union_of_disjoint hdis, unseen]
  refine Finset.card_le_card fun a ha => ?_
  rcases Finset.mem_union.1 ha with ha | ha
  · simp only [List.toFinset_append, Finset.mem_sdiff, Finset.mem_union, not_or] at ha
    exact Finset.mem_sdiff.2 ⟨ha.1, ha.2.1⟩
  · obtain ⟨hf, hi⟩ := List.mem_filter.1 (List.mem_toFinset.1 ha)
    obtain ⟨_, n, hn, _⟩ := step_eq_inside_iff.1 (of_decide_eq_true hi)
    refine Finset.mem_sdiff.2 ⟨?_, by simpa using hs a hf⟩
    exact List.mem_toFinset.2 (List.mem_map.2 ⟨n, List.mem_of_find?_eq_some hn, id_of_node? hn⟩)

theorem exists_of_mem_walk {fuel : Nat} {seen queue : List Text} {path : Text}
    (hq : ∀ a ∈ queue, Inside g file a) (hs : file ∈ seen)
    (h : path ∈ g.walk file fuel seen queue) :
    ∃ a b, Inside g file a ∧ b ∈ g.neighbors a ∧ b ≠ file ∧ g.step file b = .file path := by
  induction fuel generalizing seen queue with
  | zero => simp [walk] at h
  | succ fuel ih =>
    cases queue with
    | nil => simp [walk] at h
    | cons a queue =>
      simp only [walk, List.mem_append] at h
      rcases h with h | h
      · obtain ⟨b, hb, hstep⟩ := mem_filterMap_file?.1 h
        obtain ⟨hn, hfresh⟩ := List.mem_filter.1 hb
        have hbs : b ∉ seen := by simpa using hfresh
        exact ⟨a, b, hq a (.head _), hn, fun he => hbs (he ▸ hs), hstep⟩
      · refine ih (fun b hb => ?_) (List.mem_append_left _ hs) h
        rcases List.mem_append.1 hb with hb | hb
        · exact hq b (.tail _ hb)
        · rw [filterMap_inside?] at hb
          obtain ⟨hf, hi⟩ := List.mem_filter.1 hb
          exact .step (hq a (.head _)) (List.mem_filter.1 hf).1 (of_decide_eq_true hi)

/-- All that a walk sees in the end: with an id that it goes on from also the neighbours of that id,
and every file it lands on is found. -/
structure Covers (g : Graph) (file : Text) (seen queue found : List Text) (s : Text → Prop) :
    Prop where
  of_seen : ∀ a ∈ seen, s a
  of_queue : ∀ a ∈ queue, ∀ b ∈ g.neighbors a, s b
  of_inside : ∀ a, s a → a ∉ seen → g.step file a = .inside a → ∀ b ∈ g.neighbors a, s b
  lands : ∀ a path, s a → a ∉ seen → g.step file a = .file path → path ∈ found

theorem covers_nil (fuel : Nat) (seen : List Text) :
    Covers g file seen [] (g.walk file fuel seen []) (· ∈ seen) :=
  ⟨fun _ ha => ha, by simp, fun _ ha hn => absurd ha hn, fun _ _ ha hn => absurd ha hn⟩

theorem Covers.cons {a : Text} {seen queue fresh found : List Text} {s : Text → Prop}
    (hfresh : ∀ b, b ∈ fresh ↔ b ∈ g.neighbors a ∧ b ∉ seen)
    (h : Covers g file (seen ++ fresh) (queue ++ fresh.filter fun b => g.step file b = .inside b)
      found s) :
    Covers g file seen (a :: queue) ((fresh.map (g.step file)).filterMap Step.file? ++ found) s := by
  have step_in : ∀ b ∈ fresh, g.step file b = .inside b → ∀ e ∈ g.neighbors b, s e := by
    intro b hb hi
    exact h.of_queue b (List.mem_append_right _ (List.mem_filter.2 ⟨hb, decide_eq_true hi⟩))
  constructor
  · exact fun b hb => h.of_seen b (List.mem_append_left _ hb)
  · intro b hb e he
    rcases List.mem_cons.1 hb with rfl | hb
    · by_cases hs : e ∈ seen
      · exact h.of_seen e (List.mem_append_left _ hs)
      · exact h.of_seen e (List.mem_append_right _ ((hfresh e).2 ⟨he, hs⟩))
    · exact h.of_queue b (List.mem_append_left _ hb) e he
  · intro b hb hs hi
    by_cases hf : b ∈ fresh
    · exact step_in b hf hi
    · exact h.of_inside b hb (by simp [hs, hf]) hi
  · intro b path hb hs hp
    by_cases hf : b ∈ fresh
    · exact List.mem_append_left _ (mem_filterMap_file?.2 ⟨b, hf, hp⟩)
    · exact List.mem_append_right _ (h.lands b path hb (by simp [hs, hf]) hp)

/-- A walk with enough fuel goes on until nothing is left to be seen. -/
theorem exists_covers {fuel : Nat} {seen queue : List Text}
    (h : g.unseen seen + queue.length ≤ fuel) :
    ∃ s, Covers g file seen queue (g.walk file fuel seen queue) s := by
  induction fuel generalizing seen queue with
  | zero =>
    cases queue with
    | nil => exact ⟨_, covers_nil 0 seen⟩
    | cons a queue => simp at h
  | succ fuel ih =>
    cases queue with
    | nil => exact ⟨_, covers_nil (fuel + 1) seen⟩
    | cons a queue =>
      have hfresh : ∀ b, b ∈ (g.neighbors a).filter (· ∉ seen) ↔ b ∈ g.neighbors a ∧ b ∉ seen := by
        simp
      -- A visit takes one id off the queue, and every id that it puts there was unseen before.
      have hu := @unseen_append g file seen _ ((nodup_neighbors g a).filter (· ∉ seen))
        (fun b hb => ((hfresh b).1 hb).2)
      rw [List.length_cons] at h
      simp only [walk, filterMap_inside?]
      obtain ⟨s, hs⟩ := @ih (seen ++ (g.neighbors a).filter (· ∉ seen))
        (queue ++ ((g.neighbors a).filter (· ∉ seen)).filter fun b => g.step file b = .inside b)
        (by rw [List.length_append]; omega)
      exact ⟨s, hs.cons hfresh⟩

theorem mem_walk {path : Text} :
    path ∈ g.walk file (g.nodes.length + 1) [file] [file] ↔
      ∃ a b, Inside g file a ∧ b ∈ g.neighbors a ∧ b ≠ file ∧ g.step file b = .file path := by
  constructor
  · exact exists_of_mem_walk (by simpa using Inside.start) (.head _)
  · rintro ⟨a, b, ha, hb, hne, hstep⟩
    have hfuel : g.unseen [file] + [file].length ≤ g.nodes.length + 1 := by
      have hle : g.unseen [file] ≤ (g.nodes.map (·.id)).toFinset.card :=
        Finset.card_le_card Finset.sdiff_subset
      have hcard := List.toFinset_card_le (g.nodes.map (·.id))
      rw [List.length_map] at hcard
      simp only [List.length_singleton]
      omega
    obtain ⟨s, hs⟩ := @exists_covers g file _ _ _ hfuel
    have near : ∀ {a}, Inside g file a → ∀ b ∈ g.neighbors a, s b := by
      intro a ha
      induction ha with
      | start => exact hs.of_queue file (.head _)
      | @step a b _ hab hi ih =>
        by_cases hbf : b = file
        · exact hbf ▸ hs.of_queue file (.head _)
        · exact hs.of_inside b (ih b hab) (by simpa using hbf) hi
    exact hs.lands b path (near ha b hb) (by simpa using hne) hstep

/-- A file is adjacent to those that some neighbour of its own declarations, or of itself, leads
to. -/
theorem mem_adjacentFiles {path : Text} :
    path ∈ g.adjacentFiles file ↔ path ≠ file ∧
      ∃ a b, Inside g file a ∧ b ∈ g.neighbors a ∧ b ≠ file ∧ g.step file b = .file path := by
  simp only [adjacentFiles, List.mem_filter, mem_distinct, mem_walk, decide_eq_true_eq]
  exact and_comm

inductive Hops (g : Graph) : Nat → Text → Text → Prop where
  | zero (a : Text) : Hops g 0 a a
  | succ {n : Nat} {a b d : Text} : b ∈ g.adjacentFiles a → Hops g n b d → Hops g (n + 1) a d

theorem mem_nextLevel {visited level : List Text} {path : Text} :
    path ∈ g.nextLevel visited level ↔
      (∃ a ∈ level, path ∈ g.adjacentFiles a) ∧ path ∉ visited := by
  simp [nextLevel]

/-- A way out of the visited files leaves them from the level at hand. -/
theorem Hops.leaves {visited level : List Text}
    (hv : ∀ a ∈ visited, a ∉ level → ∀ b ∈ g.adjacentFiles a, b ∈ visited)
    {n : Nat} {a path : Text} (h : Hops g n a path) (ha : a ∈ visited) (hp : path ∉ visited) :
    ∃ b ∈ g.nextLevel visited level, ∃ m < n, Hops g m b path := by
  induction h with
  | zero a => exact absurd ha hp
  | @succ n a b d hab h ih =>
    by_cases hb : b ∈ visited
    · obtain ⟨e, he, m, hm, hh⟩ := ih hb hp
      exact ⟨e, he, m, by omega, hh⟩
    · have hal : a ∈ level := by
        by_contra hn
        exact hb (hv a ha hn b hab)
      exact ⟨b, mem_nextLevel.2 ⟨⟨a, hal, hab⟩, hb⟩, n, by omega, h⟩

theorem mem_levels {hops : Nat} {visited level : List Text} {path : Text}
    (hl : ∀ a ∈ level, a ∈ visited)
    (hv : ∀ a ∈ visited, a ∉ level → ∀ b ∈ g.adjacentFiles a, b ∈ visited) :
    path ∈ g.levels hops visited level ↔
      path ∉ visited ∧ ∃ a ∈ level, ∃ n ≤ hops, Hops g n a path := by
  induction hops generalizing visited level with
  | zero =>
    simp only [levels, List.not_mem_nil, false_iff, not_and]
    rintro hp ⟨a, ha, n, hn, h⟩
    obtain rfl : n = 0 := by omega
    cases h
    exact hp (hl _ ha)
  | succ hops ih =>
    cases hlevel : level with
    | nil => simp [levels]
    | cons first rest =>
      rw [← hlevel]
      have hunfold : g.levels (hops + 1) visited level = g.nextLevel visited level ++
          g.levels hops (visited ++ g.nextLevel visited level) (g.nextLevel visited level) := by
        rw [hlevel]; rfl
      have hl' : ∀ a ∈ g.nextLevel visited level, a ∈ visited ++ g.nextLevel visited level :=
        fun a ha => List.mem_append_right _ ha
      -- Only files of the level at hand still have neighbours that are not visited.
      have hv' : ∀ a ∈ visited ++ g.nextLevel visited level, a ∉ g.nextLevel visited level →
          ∀ b ∈ g.adjacentFiles a, b ∈ visited ++ g.nextLevel visited level := by
        intro a ha hn b hb
        have hav : a ∈ visited := (List.mem_append.1 ha).resolve_right hn
        by_cases hbv : b ∈ visited
        · exact List.mem_append_left _ hbv
        · have hal : a ∈ level := by
            by_contra hna
            exact hbv (hv a hav hna b hb)
          exact List.mem_append_right _ (mem_nextLevel.2 ⟨⟨a, hal, hb⟩, hbv⟩)
      rw [hunfold, List.mem_append, ih hl' hv']
      constructor
      · rintro (hp | ⟨hp, a, ha, n, hn, h⟩)
        · obtain ⟨⟨a, ha, hap⟩, hpv⟩ := mem_nextLevel.1 hp
          exact ⟨hpv, a, ha, 1, by omega, .succ hap (.zero path)⟩
        · obtain ⟨⟨b, hb, hba⟩, _⟩ := mem_nextLevel.1 ha
          exact ⟨fun hpv => hp (List.mem_append_left _ hpv), b, hb, n + 1, by omega, .succ hba h⟩
      · rintro ⟨hp, a, ha, n, hn, h⟩
        obtain ⟨b, hb, m, hm, hh⟩ := h.leaves hv (hl a ha) hp
        by_cases hpn : path ∈ g.nextLevel visited level
        · exact .inl hpn
        · exact .inr ⟨by simp [hp, hpn], b, hb, m, by omega, hh⟩

theorem mem_related {hops : Nat} {path : Text} :
    path ∈ g.related file hops ↔ path ≠ file ∧ ∃ n ≤ hops, Hops g n file path := by
  have h := @mem_levels g hops [file] [file] path (fun _ ha => ha) (fun _ ha hn => absurd ha hn)
  simpa [related] using h

theorem nodup_levels (g : Graph) (hops : Nat) (visited level : List Text) :
    (g.levels hops visited level).Nodup := by
  induction hops generalizing visited level with
  | zero => simp [levels]
  | succ hops ih =>
    cases level with
    | nil => simp [levels]
    | cons first rest =>
      simp only [levels]
      refine List.nodup_append'.2 ⟨(nodup_distinct _).filter _, ih _ _, ?_⟩
      intro a ha hb
      exact not_mem_visited_of_mem_levels hb (List.mem_append_right _ ha)

theorem nodup_related (g : Graph) (file : Text) (hops : Nat) : (g.related file hops).Nodup :=
  nodup_levels g hops _ _

end CodeAtlas.Graph
