import CodeAtlas.Proofs.Settings.Resolution
import CodeAtlas.Toml.Reader

set_option autoImplicit false

namespace CodeAtlas

namespace Data

mutual

def Keyed : Data → Prop
  | .list items => KeyedItems items
  | .record fields => Fields.Unique fields ∧ KeyedFields fields
  | _ => True

def KeyedItems : List Data → Prop
  | [] => True
  | v :: rest => Keyed v ∧ KeyedItems rest

def KeyedFields : List (Text × Data) → Prop
  | [] => True
  | (_, v) :: rest => Keyed v ∧ KeyedFields rest

end

theorem keyedItems_iff {items : List Data} : KeyedItems items ↔ ∀ v ∈ items, v.Keyed := by
  induction items with
  | nil => simp [KeyedItems]
  | cons v rest ih => simp [KeyedItems, ih]

theorem keyedFields_iff {fields : Fields} : KeyedFields fields ↔ ∀ f ∈ fields, f.2.Keyed := by
  induction fields with
  | nil => simp [KeyedFields]
  | cons f rest ih => simp [KeyedFields, ih]

end Data

namespace Fields

def Keyed (fields : Fields) : Prop := (Data.record fields).Keyed

theorem Keyed.nil : Keyed [] := ⟨List.nodup_nil, trivial⟩

theorem Keyed.unique {fields : Fields} (h : fields.Keyed) : fields.Unique := h.1

theorem mem_of_get? {fields : Fields} {name : Text} {v : Data} (h : get? fields name = some v) :
    (name, v) ∈ fields := by
  induction fields with
  | nil => cases h
  | cons f rest ih =>
    obtain ⟨n, w⟩ := f
    rw [get?_cons] at h
    split at h
    · next hname => cases h; rw [hname]; exact List.mem_cons_self
    · exact List.mem_cons_of_mem _ (ih h)

theorem Keyed.get? {fields : Fields} (h : fields.Keyed) {name : Text} {v : Data}
    (hv : get? fields name = some v) : v.Keyed :=
  Data.keyedFields_iff.1 h.2 _ (mem_of_get? hv)

theorem mem_set {name : Text} {v : Data} {fields : Fields} {f : Text × Data}
    (h : f ∈ set name v fields) : f = (name, v) ∨ f ∈ fields := by
  induction fields with
  | nil => exact .inl (List.mem_singleton.1 h)
  | cons g rest ih =>
    obtain ⟨n, w⟩ := g
    by_cases hn : n = name
    · rw [set, if_pos hn, hn] at h
      rcases List.mem_cons.1 h with h | h
      · exact .inl h
      · exact .inr (List.mem_cons_of_mem _ h)
    · rw [set, if_neg hn] at h
      rcases List.mem_cons.1 h with h | h
      · exact .inr (h ▸ List.mem_cons_self)
      · exact (ih h).imp id (List.mem_cons_of_mem _)

theorem Unique.set {fields : Fields} (h : fields.Unique) (name : Text) (v : Data) :
    Unique (set name v fields) := by
  induction fields with
  | nil => exact List.nodup_cons.2 ⟨List.not_mem_nil, List.nodup_nil⟩
  | cons f rest ih =>
    obtain ⟨n, w⟩ := f
    obtain ⟨hn, hrest⟩ := List.nodup_cons.1 h
    by_cases hname : n = name
    · rw [Fields.set, if_pos hname]
      exact h
    · rw [Fields.set, if_neg hname]
      refine List.nodup_cons.2 ⟨fun hmem => ?_, ih hrest⟩
      obtain ⟨f, hf, hfn⟩ := List.mem_map.1 hmem
      rcases mem_set hf with rfl | hf
      · exact hname hfn.symm
      · exact hn (List.mem_map.2 ⟨f, hf, hfn⟩)

theorem Keyed.set {fields : Fields} (h : fields.Keyed) (name : Text) {v : Data} (hv : v.Keyed) :
    Keyed (set name v fields) := by
  refine ⟨h.unique.set name v, Data.keyedFields_iff.2 fun f hf => ?_⟩
  rcases mem_set hf with rfl | hf
  · exact hv
  · exact Data.keyedFields_iff.1 h.2 f hf

end Fields

namespace Toml

open Data Fields

theorem keyed_insert {v : Data} (hv : v.Keyed) {path : List Text} {table after : Fields}
    (h : table.Keyed) (hafter : insert v path table = some after) : after.Keyed := by
  induction path generalizing table after with
  | nil => cases hafter
  | cons name path ih =>
    cases path with
    | nil =>
      unfold insert at hafter
      split at hafter <;> cases hafter
      exact h.set name hv
    | cons next path =>
      unfold insert at hafter
      cases hget : table.get? name with
      | none =>
        rw [hget] at hafter
        obtain ⟨inner, hinner, rfl⟩ := Option.map_eq_some_iff.1 hafter
        exact h.set name (ih .nil hinner)
      | some w =>
        rw [hget] at hafter
        cases w with
        | record inner =>
          obtain ⟨inner', hinner, rfl⟩ := Option.map_eq_some_iff.1 hafter
          exact h.set name (ih (h.get? hget) hinner)
        | _ => cases hafter

/-- A change of tables keeps their names apart. -/
def Keeps (change : Bool → Fields → Option Fields) : Prop :=
  ∀ inItem table after, Fields.Keyed table → change inItem table = some after → after.Keyed

theorem keyed_descend {change : Bool → Fields → Option Fields} (hchange : Keeps change)
    {inItem : Bool} {path : List Text} {table after : Fields} (h : table.Keyed)
    (hafter : descend change inItem path table = some after) : after.Keyed := by
  induction path generalizing inItem table after with
  | nil => exact hchange inItem table after h hafter
  | cons name path ih =>
    unfold descend at hafter
    cases hget : table.get? name with
    | none =>
      rw [hget] at hafter
      obtain ⟨inner, hinner, rfl⟩ := Option.map_eq_some_iff.1 hafter
      exact h.set name (ih .nil hinner)
    | some w =>
      have hw := h.get? hget
      rw [hget] at hafter
      cases w with
      | record inner =>
        obtain ⟨inner', hinner, rfl⟩ := Option.map_eq_some_iff.1 hafter
        exact h.set name (ih hw hinner)
      | list items =>
        have hitems := keyedItems_iff.1 hw
        cases hlast : items.getLast? with
        | none => simp only [hlast] at hafter; cases hafter
        | some last =>
          cases last with
          | record inner =>
            simp only [hlast] at hafter
            obtain ⟨inner', hinner, rfl⟩ := Option.map_eq_some_iff.1 hafter
            refine h.set name (keyedItems_iff.2 fun v hv => ?_)
            rcases List.mem_append.1 hv with hv | hv
            · exact hitems v ((List.dropLast_sublist items).mem hv)
            · rw [List.mem_singleton.1 hv]
              exact ih (hitems _ (List.mem_of_getLast? hlast)) hinner
          | _ => simp only [hlast] at hafter; cases hafter
      | _ => cases hafter

theorem keeps_openTable (reopen : Bool) (name : Text) : Keeps (openTable reopen name) := by
  intro inItem table after h hafter
  unfold openTable at hafter
  split at hafter
  · split at hafter <;> cases hafter
    exact h
  · cases hafter
    exact h.set name Fields.Keyed.nil

theorem keeps_openItem (name : Text) : Keeps (openItem name) := by
  intro inItem table after h hafter
  unfold openItem at hafter
  have hitem : Data.KeyedItems [.record []] := ⟨Fields.Keyed.nil, trivial⟩
  cases hget : table.get? name with
  | none =>
    rw [hget] at hafter
    cases hafter
    exact h.set name hitem
  | some w =>
    rw [hget] at hafter
    cases w with
    | list items =>
      cases hafter
      refine h.set name (keyedItems_iff.2 fun v hv => ?_)
      rcases List.mem_append.1 hv with hv | hv
      · exact keyedItems_iff.1 (h.get? hget) v hv
      · exact keyedItems_iff.1 hitem v hv
    | _ => cases hafter

theorem keeps_insert {v : Data} (hv : v.Keyed) (path : List Text) :
    Keeps fun _ table => insert v path table :=
  fun _ _ _ h hafter => keyed_insert hv h hafter

theorem keyed_bare? {t : Text} {v : Data} (h : bare? t = some v) : v.Keyed := by
  unfold bare? number? at h
  split at h
  · cases h; trivial
  split at h
  · cases h; trivial
  split at h
  · cases h; trivial
  dsimp only at h
  split at h
  · obtain ⟨x, -, rfl⟩ := Option.map_eq_some_iff.1 h
    trivial
  · obtain ⟨n, -, rfl⟩ := Option.map_eq_some_iff.1 h
    trivial

theorem keyed_readers (n : Nat) :
    (∀ t v more, value? n t = some (v, more) → v.Keyed) ∧
    (∀ given t items more, KeyedItems given → items? n given t = some (items, more) →
      KeyedItems items) ∧
    (∀ given t fields more, Fields.Keyed given → entries? n given t = some (fields, more) →
      fields.Keyed) := by
  induction n with
  | zero => exact ⟨nofun, nofun, nofun⟩
  | succ n ih =>
    obtain ⟨hvalue, hitems, hentries⟩ := ih
    refine ⟨?_, ?_, ?_⟩
    case refine_1 =>
      intro t v more h
      unfold value? at h
      split at h
      · obtain ⟨⟨items, rest⟩, hread, heq⟩ := Option.map_eq_some_iff.1 h
        cases heq
        exact hitems [] _ _ _ trivial hread
      · obtain ⟨⟨fields, rest⟩, hread, heq⟩ := Option.map_eq_some_iff.1 h
        cases heq
        exact hentries [] _ _ _ .nil hread
      · split at h
        · cases h; trivial
        · obtain ⟨w, hw, heq⟩ := Option.map_eq_some_iff.1 h
          cases heq
          exact keyed_bare? hw
    case refine_2 =>
      intro given t items more hgiven h
      unfold items? at h
      split at h
      · cases h
      · cases h
        exact keyedItems_iff.2 fun v hv => keyedItems_iff.1 hgiven v (List.mem_reverse.1 hv)
      · exact hitems given _ _ _ hgiven h
      · obtain ⟨⟨v, rest⟩, hv, h⟩ := Option.bind_eq_some_iff.1 h
        have hmore : KeyedItems (v :: given) := ⟨hvalue _ _ _ hv, hgiven⟩
        dsimp only at h
        split at h
        · cases h
        · split at h
          · exact hitems _ _ _ _ hmore h
          · cases h
            exact keyedItems_iff.2 fun w hw => keyedItems_iff.1 hmore w (List.mem_reverse.1 hw)
          · cases h
    case refine_3 =>
      intro given t fields more hgiven h
      unfold entries? at h
      split at h
      · split at h <;> cases h
        exact .nil
      · obtain ⟨⟨path, rest⟩, -, h⟩ := Option.bind_eq_some_iff.1 h
        obtain ⟨⟨v, rest⟩, hv, h⟩ := Option.bind_eq_some_iff.1 h
        obtain ⟨after, hafter, h⟩ := Option.bind_eq_some_iff.1 h
        have hkeyed := keyed_insert (hvalue _ _ _ hv) hgiven hafter
        split at h
        · exact hentries _ _ _ _ hkeyed h
        · cases h
          exact hkeyed
        · cases h

namespace Document

theorem keyed_openTable {path : List Text} {d after : Document} (h : d.root.Keyed)
    (hafter : d.openTable path = some after) : after.root.Keyed := by
  obtain ⟨name, -, hafter⟩ := Option.bind_eq_some_iff.1 hafter
  obtain ⟨root, hroot, hafter⟩ := Option.bind_eq_some_iff.1 hafter
  cases hafter
  exact keyed_descend (keeps_openTable _ name) h hroot

theorem keyed_openItem {path : List Text} {d after : Document} (h : d.root.Keyed)
    (hafter : d.openItem path = some after) : after.root.Keyed := by
  obtain ⟨name, -, hafter⟩ := Option.bind_eq_some_iff.1 hafter
  split at hafter
  · cases hafter
  · obtain ⟨root, hroot, hafter⟩ := Option.bind_eq_some_iff.1 hafter
    cases hafter
    exact keyed_descend (keeps_openItem name) h hroot

theorem keyed_assign {path : List Text} {v : Data} (hv : v.Keyed) {d after : Document}
    (h : d.root.Keyed) (hafter : d.assign path v = some after) : after.root.Keyed := by
  obtain ⟨root, hroot, hafter⟩ := Option.bind_eq_some_iff.1 hafter
  cases hafter
  exact keyed_descend (keeps_insert hv path) h hroot

end Document

theorem keyed_lines? {n : Nat} {d : Document} {t : Text} {fields : Fields} (hd : d.root.Keyed)
    (h : lines? n d t = some fields) : fields.Keyed := by
  induction n generalizing d t with
  | zero => cases h
  | succ n ih =>
    unfold lines? at h
    split at h
    · cases h
      exact hd
    · obtain ⟨⟨path, rest⟩, -, h⟩ := Option.bind_eq_some_iff.1 h
      dsimp only at h
      split at h
      · obtain ⟨after, hafter, h⟩ := Option.bind_eq_some_iff.1 h
        obtain ⟨rest, -, h⟩ := Option.bind_eq_some_iff.1 h
        exact ih (Document.keyed_openItem hd hafter) h
      · cases h
    · obtain ⟨⟨path, rest⟩, -, h⟩ := Option.bind_eq_some_iff.1 h
      obtain ⟨after, hafter, h⟩ := Option.bind_eq_some_iff.1 h
      obtain ⟨rest, -, h⟩ := Option.bind_eq_some_iff.1 h
      exact ih (Document.keyed_openTable hd hafter) h
    · obtain ⟨⟨path, rest⟩, -, h⟩ := Option.bind_eq_some_iff.1 h
      obtain ⟨⟨v, rest⟩, hv, h⟩ := Option.bind_eq_some_iff.1 h
      obtain ⟨after, hafter, h⟩ := Option.bind_eq_some_iff.1 h
      obtain ⟨rest, -, h⟩ := Option.bind_eq_some_iff.1 h
      exact ih (Document.keyed_assign ((keyed_readers _).1 _ _ _ hv) hd hafter) h

/-- No table of a document has a name twice. -/
theorem keyed_read {t : Text} {fields : Fields} (h : read t = some fields) : fields.Keyed :=
  keyed_lines? .nil h

end Toml

end CodeAtlas
