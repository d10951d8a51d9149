import CodeAtlas.Stage.Record

/-!
The lifecycle of a stage, whatever is done to it in whatever order. Main statement: the error text
goes with the status, an operation that the status does not allow is refused before it writes
anything, the status only moves forward until the next reset, and a snapshot keeps the values that
it was taken with.
-/

set_option autoImplicit false

namespace CodeAtlas

namespace Status

/-- The order of idle, processing, and then completed or error, which come after each other in no
order. -/
def NoLater (s t : Status) : Prop := s = t ∨ s.rank < t.rank

theorem NoLater.trans {s t u : Status} (h : s.NoLater t) (h' : t.NoLater u) : s.NoLater u := by
  rcases h with rfl | h
  · exact h'
  · rcases h' with rfl | h'
    · exact .inr h
    · exact .inr (by omega)

theorem noLater_of_allows {s t : Status} (h : s.allows t = true) : s.NoLater t := by
  cases s <;> cases t <;> first | exact .inl rfl | exact .inr (by decide) | cases h

end Status

namespace StageState

namespace Work

variable {α β : Type}

theorem exec_bind (w : Work α) (k : α → Work β) (s : StageState) :
    (w >>= k).exec s =
      match w.exec s with
      | (.ok a, t) => (k a).exec t
      | (.error fault, t) => (.error fault, t) := by
  unfold exec ExceptT.run StateT.run
  simp only [bind, ExceptT.bind, ExceptT.mk, StateT.bind]
  cases h : w s with
  | mk outcome t => cases outcome <;> rfl

theorem exec_goTo (target : Status) (s : StageState) :
    (goTo target).exec s =
      if s.status.allows target then (.ok (), { s with status := target })
      else (.error (.illegalMove s.id s.status target), s) := by
  have hget : (getThe StageState : Work StageState).exec s = (.ok s, s) := rfl
  rw [goTo, exec_bind, hget]
  dsimp only
  split <;> rfl

theorem exec_goTo_bind (target : Status) (w : Work Unit) (s : StageState) :
    Work.exec (do goTo target; w) s =
      if s.status.allows target then w.exec { s with status := target }
      else (.error (.illegalMove s.id s.status target), s) := by
  rw [exec_bind, exec_goTo]
  cases s.status.allows target <;> rfl

end Work

namespace Operation

/-- A reset is allowed at any time, anything else if its target is. -/
def isAllowed (op : Operation) (status : Status) : Bool :=
  op == .reset || status.allows op.target

def apply : Operation → StageState → StageState
  | .start task, s => { s with status := .processing, task }
  | .updateTask task, s => { s with status := .processing, task := some task }
  | .complete, s => { s with status := .completed, task := none }
  | .fail message, s => { s with status := .error, error := some message }
  | .reset, s => { id := s.id }

theorem exec_eq (op : Operation) (s : StageState) :
    op.exec s =
      if op.isAllowed s.status then (.ok (), op.apply s)
      else (.error (.illegalMove s.id s.status op.target), s) := by
  cases op with
  | reset => rfl
  | start task => exact Work.exec_goTo_bind .processing (Work.setTask task) s
  | updateTask task => exact Work.exec_goTo_bind .processing (Work.setTask (some task)) s
  | complete => exact Work.exec_goTo_bind .completed (Work.setTask none) s
  | fail message => exact Work.exec_goTo_bind .error (Work.setError (some message)) s

theorem id_apply (op : Operation) (s : StageState) : (op.apply s).id = s.id := by
  cases op <;> rfl

theorem status_apply (op : Operation) (s : StageState) : (op.apply s).status = op.target := by
  cases op <;> rfl

theorem allows_of_isAllowed {op : Operation} {status : Status} (hop : op ≠ .reset)
    (h : op.isAllowed status = true) : status.allows op.target = true := by
  simpa [isAllowed, hop] using h

theorem isAllowed_final {op : Operation} {status : Status} (hop : op ≠ .reset)
    (h : status = .completed ∨ status = .error) : op.isAllowed status = false := by
  have hnext : status.allows op.target = false := by
    rcases h with rfl | rfl <;> rfl
  simp [isAllowed, hop, hnext]

end Operation

theorem move_bind (target : Status) (s : StageState) (f : StageState → StageState) :
    (do return f (← s.move target) : Except Fault StageState) =
      if s.status.allows target then .ok (f { s with status := target })
      else .error (.illegalMove s.id s.status target) := by
  rw [move]
  cases s.status.allows target <;> rfl

theorem perform_eq (op : Operation) (s : StageState) :
    s.perform op =
      if op.isAllowed s.status then .ok (op.apply s)
      else .error (.illegalMove s.id s.status op.target) := by
  cases op with
  | reset => rfl
  | start task => exact move_bind .processing s fun t => { t with task }
  | updateTask task => exact move_bind .processing s fun t => { t with task := some task }
  | complete => exact move_bind .completed s fun t => { t with task := none }
  | fail message => exact move_bind .error s fun t => { t with error := some message }

theorem after_eq (op : Operation) (s : StageState) :
    s.after op = if op.isAllowed s.status then op.apply s else s := by
  rw [after, perform_eq]
  cases op.isAllowed s.status <;> rfl

/-- What an operation does to the record of a stage is what it does to the stage. -/
theorem exec_eq_after (op : Operation) (s : StageState) :
    op.exec s =
      (if op.isAllowed s.status then .ok () else .error (.illegalMove s.id s.status op.target),
        s.after op) := by
  rw [Operation.exec_eq, after_eq]
  cases op.isAllowed s.status <;> rfl

theorem after_of_not_allowed {op : Operation} {s : StageState}
    (h : op.isAllowed s.status = false) : s.after op = s := by
  rw [after_eq, h]
  rfl

theorem id_after (op : Operation) (s : StageState) : (s.after op).id = s.id := by
  rw [after_eq]
  split
  · exact op.id_apply s
  · rfl

theorem id_afterAll (s : StageState) (ops : List Operation) : (s.afterAll ops).id = s.id := by
  induction ops generalizing s with
  | nil => rfl
  | cons op ops ih => exact (ih (s.after op)).trans (id_after op s)

structure Consistent (s : StageState) : Prop where
  error_iff : s.error.isSome ↔ s.status = .error
  idle : s.status = .idle → s.task = none ∧ s.error = none
  completed : s.status = .completed → s.task = none

section Consistent

variable {s : StageState}

theorem consistent_new (id : Text) : Consistent { id } where
  error_iff := by simp
  idle _ := ⟨rfl, rfl⟩
  completed := by simp

theorem Consistent.apply (h : s.Consistent) {op : Operation}
    (hallowed : op.isAllowed s.status = true) : (op.apply s).Consistent := by
  by_cases hop : op = .reset
  · subst hop
    exact consistent_new s.id
  -- what is allowed but a reset finds no error
  have herror : s.error = none := by
    have hstatus : s.status ≠ .error := fun he => by
      rw [Operation.isAllowed_final hop (.inr he)] at hallowed
      cases hallowed
    rw [← Option.not_isSome_iff_eq_none, h.error_iff]
    exact hstatus
  cases op with
  | reset => exact absurd rfl hop
  | start task => constructor <;> simp [Operation.apply, herror]
  | updateTask task => constructor <;> simp [Operation.apply, herror]
  | complete => constructor <;> simp [Operation.apply, herror]
  | fail message => constructor <;> simp [Operation.apply]

theorem Consistent.after (h : s.Consistent) (op : Operation) : (s.after op).Consistent := by
  rw [after_eq]
  split
  · rename_i hallowed
    exact h.apply hallowed
  · exact h

theorem Consistent.afterAll (h : s.Consistent) (ops : List Operation) :
    (s.afterAll ops).Consistent := by
  induction ops generalizing s with
  | nil => exact h
  | cons op ops ih => exact ih (h.after op)

end Consistent

theorem noLater_after (s : StageState) {op : Operation} (hop : op ≠ .reset) :
    s.status.NoLater (s.after op).status := by
  rw [after_eq]
  split
  · rename_i hallowed
    rw [op.status_apply]
    exact Status.noLater_of_allows (Operation.allows_of_isAllowed hop hallowed)
  · exact .inl rfl

theorem noLater_afterAll (s : StageState) {ops : List Operation} (h : .reset ∉ ops) :
    s.status.NoLater (s.afterAll ops).status := by
  induction ops generalizing s with
  | nil => exact .inl rfl
  | cons op ops ih =>
    rw [List.mem_cons, not_or] at h
    exact (s.noLater_after (Ne.symm h.1)).trans (ih _ h.2)

theorem after_final {s : StageState} (h : s.status = .completed ∨ s.status = .error)
    {op : Operation} (hop : op ≠ .reset) : s.after op = s :=
  after_of_not_allowed (Operation.isAllowed_final hop h)

end StageState

namespace StageMemory

open StageState (Action Operation)

def opsAt (place : Nat) (actions : List Action) : List Operation :=
  actions.filterMap fun
    | .perform other op => if other = place then some op else none
    | .snapshot _ => none

theorem length_act (m : StageMemory) (action : Action) : m.length ≤ (m.act action).length := by
  cases action <;> simp [act]

/-- An action changes no record but the one that it is performed on. -/
theorem getElem?_act (m : StageMemory) (action : Action) {place : Nat} (h : place < m.length) :
    (m.act action)[place]? = m[place]?.map fun s => s.afterAll (opsAt place [action]) := by
  cases action with
  | snapshot other =>
    rw [act, List.getElem?_append_left h]
    simp [opsAt, StageState.afterAll]
  | perform other op =>
    rw [act, List.getElem?_modify]
    by_cases heq : other = place
    · simp [opsAt, heq, StageState.exec_eq_after, StageState.afterAll]
    · simp [opsAt, heq, StageState.afterAll]

theorem getElem?_actAll (m : StageMemory) (actions : List Action) {place : Nat}
    (h : place < m.length) :
    (m.actAll actions)[place]? = m[place]?.map fun s => s.afterAll (opsAt place actions) := by
  induction actions generalizing m with
  | nil => simp [actAll, opsAt, StageState.afterAll]
  | cons action actions ih =>
    have hops : opsAt place (action :: actions) = opsAt place [action] ++ opsAt place actions := by
      rw [opsAt, opsAt, opsAt, ← List.filterMap_append, List.singleton_append]
    have hstep : m.actAll (action :: actions) = (m.act action).actAll actions := rfl
    rw [hstep, ih _ (Nat.lt_of_lt_of_le h (m.length_act action)), m.getElem?_act action h,
      Option.map_map, hops]
    congr 1
    funext s
    exact List.foldl_append.symm

theorem opsAt_eq_nil {place : Nat} {actions : List Action}
    (h : ∀ op, .perform place op ∉ actions) : opsAt place actions = [] := by
  refine List.filterMap_eq_nil_iff.2 fun action haction => ?_
  cases action with
  | snapshot other => rfl
  | perform other op =>
    have hne : other ≠ place := fun heq => h op (heq ▸ haction)
    simp [hne]

theorem getElem?_snapshot {m : StageMemory} {place : Nat} {s : StageState}
    (h : m[place]? = some s) : (m.act (.snapshot place))[m.length]? = some s := by
  rw [act, h]
  simp [StageState.snapshot]

end StageMemory

namespace StageState

/-- In every state that is reached: the fields agree, an operation is refused exactly if the status
does not allow its target, and then nothing is written, completed and error are left by a reset
alone, the status only moves forward until the next reset, and a snapshot stays as it is, whatever
is done later to other records. -/
theorem afterAll_lifecycle (id : Text) (ops : List Operation) :
    let s := afterAll { id } ops
    s.Consistent ∧
      (∀ op : Operation, op.exec s =
        (if op.isAllowed s.status then .ok () else .error (.illegalMove id s.status op.target),
          s.after op)) ∧
      (∀ op : Operation, op.isAllowed s.status = false → s.after op = s) ∧
      (s.status = .completed ∨ s.status = .error → ∀ op, op ≠ .reset → s.after op = s) ∧
      (∀ later, .reset ∉ later → s.status.NoLater (s.afterAll later).status) ∧
      ∀ (m : StageMemory) (place : Nat), m[place]? = some s → ∀ later : List Action,
        (∀ op, .perform m.length op ∉ later) →
          ((m.act (.snapshot place)).actAll later)[m.length]? = some s := by
  intro s
  have hid : s.id = id := id_afterAll { id } ops
  refine ⟨(consistent_new id).afterAll ops, fun op => hid ▸ exec_eq_after op s,
    fun op => after_of_not_allowed, fun hfinal op => after_final hfinal,
    fun later => s.noLater_afterAll, fun m place hplace later hlater => ?_⟩
  have hnew := StageMemory.getElem?_snapshot hplace
  have hlength : m.length < (m.act (.snapshot place)).length :=
    (List.getElem?_eq_some_iff.1 hnew).1
  rw [StageMemory.getElem?_actAll _ _ hlength, hnew, StageMemory.opsAt_eq_nil hlater]
  rfl

/-- A stage that failed at its task refuses to start, and a reset changes it but not its snapshot. -/
theorem afterAll_lifecycle_failed :
    let s : StageState := { id := "x", status := .error, task := some "t", error := some "bad" }
    afterAll { id := "x" } [.start (some "t"), .fail "bad"] = s ∧
      s.Consistent ∧
      (Operation.start none).exec s = (.error (.illegalMove "x" .error .processing), s) ∧
      s.after .complete = s ∧
      Status.NoLater .error (s.afterAll [.complete]).status ∧
      (StageMemory.act [s] (.snapshot 0)).actAll [.perform 0 .reset] = [{ id := "x" }, s] := by
  intro s
  have hs : afterAll { id := "x" } [.start (some "t"), .fail "bad"] = s := rfl
  obtain ⟨hfields, hexec, hrefused, hfinal, hforward, hsnapshot⟩ :=
    afterAll_lifecycle "x" [.start (some "t"), .fail "bad"]
  rw [hs] at hfields hexec hrefused hfinal hforward hsnapshot
  refine ⟨hs, hfields, ?_, hfinal (.inr rfl) .complete (by simp), hforward [.complete] (by simp),
    ?_⟩
  · rw [hexec, hrefused _ rfl]
    rfl
  · have hkept := hsnapshot [s] 0 rfl [.perform 0 .reset] (by simp)
    refine List.ext_getElem? fun i => ?_
    match i with
    | 0 => rfl
    | 1 => exact hkept
    | _ + 2 => rfl

end StageState

end CodeAtlas
