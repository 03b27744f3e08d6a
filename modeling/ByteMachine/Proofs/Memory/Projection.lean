import ByteMachine.Proofs.Memory.History

/-!
# A registry is its banks side by side

A registry is asked, in any order, to add banks and to work on banks that it has. Seen from one
number it is the bank that was first added under that number, and the requests to that bank.

* `Registry.Request.next` says what a request makes of the bank under a number, and `bank?_serve`
  that it does so, granted or refused.
* `bank?_perform_of_some`: a bank that is there goes through the requests to it and no others.
  `bank?_perform_of_none`: one that is not there yet came with the first request to add it.
* `inserted_iff`: a number has a bank exactly if a request to add one was granted.

`registry_projects` puts this together for every run that starts without banks.
-/

namespace ByteMachine.Registry

/-! ## 1. Runs -/

/-- The number that a request is about. -/
def Request.id : Registry.Request → BankId
  | .insert id _ | .bank id _ => id

/-- What a request asks of the bank under a number. -/
def Request.ofBank? (id : BankId) : Registry.Request → Option Bank.Request
  | .bank key request => if key = id then some request else none
  | .insert .. => none

/-- The registry after some requests, granted or refused. -/
def perform (r : Registry) (requests : List Registry.Request) : Registry :=
  requests.foldl (fun r q => ((serve q).run r).state) r

/-- Each of some requests with its result, in order. -/
def transcript : Registry → List Registry.Request →
    List (Registry.Request × Except Fault (Option Answer))
  | _, [] => []
  | r, q :: requests =>
    (q, ((serve q).run r).result) :: ((serve q).run r).state.transcript requests

/-- A request to add a bank under the number was granted. -/
def Inserted (calls : List (Registry.Request × Except Fault (Option Answer))) (id : BankId) :
    Prop :=
  ∃ bank answer, (.insert id bank, .ok answer) ∈ calls

theorem perform_cons (r : Registry) (q : Registry.Request) (requests : List Registry.Request) :
    r.perform (q :: requests) = ((serve q).run r).state.perform requests := rfl

theorem perform_append (r : Registry) (xs ys : List Registry.Request) :
    r.perform (xs ++ ys) = (r.perform xs).perform ys :=
  List.foldl_append

/-! ## 2. One request -/

section Step

variable {r : Registry} {id : BankId} {α : Type}

theorem onBank_of_none (missing : r.bank? id = none) (a : Action Bank α) :
    (onBank id a).run r = ⟨.ok none, r, []⟩ := by
  rw [onBank, Action.run_view_bind]
  simp only [missing]
  rfl

/-- The state that an action leaves on a bank replaces that bank, after a fault too. -/
theorem state_onBank_of_some {bank : Bank} (found : r.bank? id = some bank) (a : Action Bank α) :
    ((onBank id a).run r).state = r.replace id (a.run bank).state := by
  rw [onBank, Action.run_view_bind]
  simp only [found]
  rcases h : a.run bank with ⟨fault | x, after, log⟩
  · rw [Action.bind_of_error (by rw [Action.run_within, h])]
  · rw [Action.bind_of_ok (by rw [Action.run_within, h])]
    rfl

/-- What a request makes of the bank under its number. -/
def Request.next (view : Option Bank) : Registry.Request → Option Bank
  | .insert _ fresh => some (view.getD fresh)
  | .bank _ request => view.map fun b => ((Bank.serve request).run b).state

/-- A request leaves the registry as it is or replaces the bank under its number. -/
theorem serve_cases (r : Registry) (q : Registry.Request) :
    (((serve q).run r).state = r ∧ q.next (r.bank? q.id) = r.bank? q.id) ∨
    ∃ b, ((serve q).run r).state = r.replace q.id b ∧ q.next (r.bank? q.id) = some b := by
  cases q with
  | insert id fresh =>
    rw [serve]
    cases found : r.bank? id with
    | none =>
      rw [Action.bind_of_silent (insert_of_none found fresh)]
      exact .inr ⟨fresh, rfl, by rw [Request.id, found]; rfl⟩
    | some old =>
      rw [Action.bind_of_error (insert_of_some found fresh)]
      exact .inl ⟨rfl, by rw [Request.id, found]; rfl⟩
  | bank id request =>
    rw [serve]
    cases found : r.bank? id with
    | none =>
      rw [onBank_of_none found]
      exact .inl ⟨rfl, by rw [Request.id, found]; rfl⟩
    | some old =>
      rw [state_onBank_of_some found]
      exact .inr ⟨_, rfl, by rw [Request.id, found]; rfl⟩

/-- **A request changes the bank under its own number and no other**, granted or refused. -/
theorem bank?_serve (r : Registry) (q : Registry.Request) (id : BankId) :
    ((serve q).run r).state.bank? id = if q.id = id then q.next (r.bank? id) else r.bank? id := by
  rcases serve_cases r q with ⟨same, kept⟩ | ⟨b, replaced, made⟩
  · rw [same]
    split
    case isTrue own => rw [← own, kept]
    case isFalse => rfl
  · rw [replaced, bank?_replace]
    split
    case isTrue own => rw [← own, made]
    case isFalse => rfl

/-- A bank that is there goes through the request if that is about it. -/
theorem bank?_serve_of_some {b : Bank} (found : r.bank? id = some b) (q : Registry.Request) :
    ((serve q).run r).state.bank? id = some (b.perform (q.ofBank? id).toList) := by
  rw [bank?_serve, found]
  cases q with
  | insert key fresh => split <;> rfl
  | bank key request =>
    rw [Request.id, Request.ofBank?]
    split <;> rfl

/-- A bank that is not there can only come with a request to add it. -/
theorem bank?_serve_of_none {b : Bank} (missing : r.bank? id = none) (q : Registry.Request) :
    ((serve q).run r).state.bank? id = some b ↔ q = .insert id b := by
  rw [bank?_serve, missing]
  cases q with
  | insert key fresh => by_cases own : key = id <;> simp [Request.id, Request.next, own]
  | bank key request => by_cases own : key = id <;> simp [Request.id, Request.next, own]

end Step

/-! ## 3. Whole runs -/

section Run

variable {r : Registry} {id : BankId} {b : Bank}

/-- **A bank goes through the requests to it, in order, and through no others.** -/
theorem bank?_perform_of_some (found : r.bank? id = some b) (requests : List Registry.Request) :
    (r.perform requests).bank? id = some (b.perform (requests.filterMap (·.ofBank? id))) := by
  induction requests generalizing r b with
  | nil => exact found
  | cons q requests ih =>
    rw [perform_cons, ih (bank?_serve_of_some found q)]
    cases asked : q.ofBank? id with
    | none =>
      rw [List.filterMap_cons_none asked]
      rfl
    | some request =>
      rw [List.filterMap_cons_some asked]
      rfl

/-- **A bank that was not there came with the first request to add one under its number.** -/
theorem bank?_perform_of_none (missing : r.bank? id = none) (requests : List Registry.Request) :
    (r.perform requests).bank? id = some b ↔ ∃ before first later,
      requests = before ++ .insert id first :: later ∧ (r.perform before).bank? id = none ∧
      b = first.perform (later.filterMap (·.ofBank? id)) := by
  constructor
  · intro found
    -- The run is followed up to the request that brings the bank; from there on the bank is there.
    induction requests generalizing r with
    | nil =>
      have absent : r.bank? id = some b := found
      rw [missing] at absent
      cases absent
    | cons q requests ih =>
      rw [perform_cons] at found
      cases after : ((serve q).run r).state.bank? id with
      | none =>
        obtain ⟨before, first, later, rfl, still, e⟩ := ih after found
        exact ⟨q :: before, first, later, rfl, still, e⟩
      | some first =>
        have brought := (bank?_serve_of_none missing q).mp after
        subst brought
        rw [bank?_perform_of_some after] at found
        exact ⟨[], first, requests, rfl, missing, (Option.some.inj found).symm⟩
  · rintro ⟨before, first, later, rfl, still, rfl⟩
    rw [perform_append, perform_cons]
    exact bank?_perform_of_some ((bank?_serve_of_none still _).mpr rfl) later

theorem inserted_cons {call : Registry.Request × Except Fault (Option Answer)}
    {calls : List (Registry.Request × Except Fault (Option Answer))} :
    Inserted (call :: calls) id ↔
      (∃ bank answer, call = (.insert id bank, .ok answer)) ∨ Inserted calls id := by
  constructor
  · rintro ⟨bank, answer, here⟩
    rcases List.mem_cons.mp here with e | there
    · exact .inl ⟨bank, answer, e.symm⟩
    · exact .inr ⟨bank, answer, there⟩
  · rintro (⟨bank, answer, rfl⟩ | ⟨bank, answer, there⟩)
    · exact ⟨bank, answer, List.mem_cons_self⟩
    · exact ⟨bank, answer, List.mem_cons_of_mem _ there⟩

/-- **A number that had no bank has one exactly if a request to add one was granted.** -/
theorem inserted_iff (missing : r.bank? id = none) (requests : List Registry.Request) :
    Inserted (r.transcript requests) id ↔ ((r.perform requests).bank? id).isSome := by
  induction requests generalizing r with
  | nil =>
    have absent : (r.perform []).bank? id = none := missing
    rw [absent]
    exact iff_of_false (fun ⟨_, _, here⟩ => List.not_mem_nil here) nofun
  | cons q requests ih =>
    rw [transcript, inserted_cons, perform_cons]
    cases after : ((serve q).run r).state.bank? id with
    | none =>
      rw [← ih after]
      refine or_iff_right ?_
      rintro ⟨bank, answer, e⟩
      have brought := (bank?_serve_of_none missing q).mpr (Prod.mk.inj e).1
      rw [after] at brought
      cases brought
    | some first =>
      have brought := (bank?_serve_of_none missing q).mp after
      subst brought
      rw [bank?_perform_of_some after]
      refine iff_of_true (.inl ⟨first, some .done, ?_⟩) rfl
      rw [serve, Action.bind_of_silent (insert_of_none missing first)]
      rfl

/-- What is under a number depends on the requests about that number. -/
theorem bank?_perform_filter {s : Registry} (same : r.bank? id = s.bank? id)
    (requests : List Registry.Request) :
    (r.perform requests).bank? id = (s.perform (requests.filter (·.id = id))).bank? id := by
  -- The second registry stands still while the first is asked about other numbers.
  induction requests generalizing r s with
  | nil => exact same
  | cons q requests ih =>
    by_cases own : q.id = id
    · rw [List.filter_cons_of_pos (by simpa using own), perform_cons, perform_cons]
      refine ih ?_
      rw [bank?_serve, bank?_serve, same]
    · rw [List.filter_cons_of_neg (by simpa using own), perform_cons]
      refine ih ?_
      rw [bank?_serve, if_neg own, same]

end Run

/-! ## 4. The law -/

/-- **A registry is its banks side by side.** After any requests to a registry that starts without
    banks: a bank can be added under a number exactly if no request to add one there was granted
    before, and is otherwise refused without changing anything; a number has a bank exactly if
    such a request was granted; and that bank is the one that was added first, after the
    requests to it, in order, and no others. So a cell is read from that bank, and what is read
    does not depend on the requests about other numbers. -/
theorem registry_projects (requests : List Registry.Request) :
    let r := empty.perform requests
    let calls := empty.transcript requests
    (∀ id bank,
      (((insert id bank).run r).result = .ok () ↔ ¬ Inserted calls id) ∧
      (Inserted calls id → (insert id bank).run r = ⟨.error (.duplicateBank id), r, []⟩)) ∧
    (∀ id, (r.bank? id).isSome ↔ Inserted calls id) ∧
    (∀ id bank, r.bank? id = some bank ↔ ∃ before first later,
      requests = before ++ .insert id first :: later ∧ ¬ Inserted (empty.transcript before) id ∧
      bank = first.perform (later.filterMap (·.ofBank? id))) ∧
    ∀ id o,
      (¬ Inserted calls id → r.bank?.readAt ⟨id, o⟩ = .error (.unknownBank id)) ∧
      (∀ bank, r.bank? id = some bank → r.bank?.readAt ⟨id, o⟩ = bank.read o) ∧
      r.bank?.readAt ⟨id, o⟩ =
        (empty.perform (requests.filter (·.id = id))).bank?.readAt ⟨id, o⟩ := by
  intro r calls
  have inserted (id : BankId) : Inserted calls id ↔ (r.bank? id).isSome :=
    inserted_iff (bank?_empty id) requests
  have absent (id : BankId) : ¬ Inserted calls id ↔ r.bank? id = none := by
    rw [inserted, Option.not_isSome_iff_eq_none]
  refine ⟨fun id bank => ⟨?_, fun there => ?_⟩, fun id => (inserted id).symm, fun id bank => ?_,
    fun id o => ⟨fun missing => Banks.readAt_of_none ((absent id).mp missing),
      fun bank found => Banks.readAt_of_some (a := ⟨id, o⟩) found,
      Banks.readAt_congr (bank?_perform_filter rfl requests)⟩⟩
  · rw [absent]
    cases found : r.bank? id with
    | none =>
      rw [insert_of_none found]
      exact iff_of_true rfl rfl
    | some old =>
      rw [insert_of_some found]
      exact iff_of_false nofun nofun
  · obtain ⟨old, found⟩ := Option.isSome_iff_exists.mp ((inserted id).mp there)
    exact insert_of_some found bank
  · rw [bank?_perform_of_none (bank?_empty id)]
    simp only [inserted_iff (bank?_empty id), Option.not_isSome_iff_eq_none]

/-- It holds of a run in which a number is given away once, to a bank of one cell, and then refused
    to a bank of nine, with a write to a bank that does not exist in between. -/
theorem registry_projects_one_cell :
    ∃ small large, Bank.create 1 = .ok small ∧ Bank.create 9 = .ok large ∧
      let requests : List Registry.Request :=
        [.insert 5 small, .bank 6 (.write 0 8), .insert 5 large, .bank 5 (.write 0 3)]
      (empty.perform requests).bank? 5 = some (small.perform [.write 0 3]) ∧
      (empty.perform requests).bank?.readAt ⟨5, 0⟩ = .ok 3 := by
  obtain ⟨small, large, made, made', written⟩ : ∃ small large, Bank.create 1 = .ok small ∧
      Bank.create 9 = .ok large ∧ (small.perform [.write 0 3]).read 0 = .ok 3 :=
    ⟨_, _, rfl, rfl, rfl⟩
  refine ⟨small, large, made, made', ?_⟩
  intro requests
  obtain ⟨_, _, banks, cells⟩ := registry_projects requests
  have kept : (empty.perform requests).bank? 5 = some (small.perform [.write 0 3]) :=
    (banks 5 _).mpr ⟨[], small, _, rfl, fun ⟨_, _, here⟩ => List.not_mem_nil here, rfl⟩
  exact ⟨kept, ((cells 5 0).2.1 _ kept).trans written⟩

end ByteMachine.Registry
