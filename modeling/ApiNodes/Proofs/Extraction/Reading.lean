import ApiNodes.Api.Entry
import Mathlib.Tactic.Common

namespace ApiNodes.Api

/-!
# Reading operations

What an operation that is read from an endpoint takes over: `read_eq_ok_iff` says it of all fields,
and `read_spec` of those that no later step looks at as a document value.
-/

/-- What a result that is asked for shows is shown by a result that is there. -/
theorem exists_of_toOption {ε α β : Type} {x : Except ε α} {f : α → β} {b : β}
    (h : x.toOption.map f = some b) : ∃ a, x = .ok a ∧ f a = b := by
  cases x with
  | error e => cases h
  | ok a => exact ⟨a, rfl, Option.some.inj h⟩

/-- What a result shows of its only item is shown by an item of a result that is there. -/
theorem exists_mem_of_toOption {ε α β : Type} {x : Except ε (List α)} {f : α → β} {b : β}
    (h : (x.toOption.map fun as => as.map f) = some [b]) : ∃ as, x = .ok as ∧ ∃ a ∈ as, f a = b := by
  obtain ⟨as, hx, has⟩ := exists_of_toOption h
  have hmem : b ∈ as.map f := by
    rw [has]
    exact List.mem_singleton_self b
  exact ⟨as, hx, List.mem_map.mp hmem⟩

/-- A record that is read, field by field, from checked parts is good when all parts are. -/
theorem seq_eq_good_iff {α β : Type} {f : Checked (α → β)} {a : Checked α} {b : β} :
    f <*> a = .good b ↔ ∃ g x, f = .good g ∧ a = .good x ∧ g x = b := by
  cases f <;> cases a <;> simp [Seq.seq, Checked.both]

/-- A record is good when the part that it is made from is. -/
theorem map_eq_good_iff {α β : Type} {f : α → β} {a : Checked α} {b : β} :
    f <$> a = .good b ↔ ∃ x, a = .good x ∧ f x = b := by
  show Checked.both (.good f) a = .good b ↔ _
  cases a <;> simp [Checked.both]

/-- A record is there when it is good. -/
theorem checked_eq_ok_iff {α : Type} {record : RecordKind} {a : Checked α} {x : α} :
    checked record a = .ok x ↔ a = .good x := by
  cases a <;> simp [checked]

/-- A part is the same wherever it stands. -/
theorem under_eq_good_iff {α : Type} {p : Place} {a : Checked α} {x : α} :
    a.under p = .good x ↔ a = .good x := by
  cases a <;> simp [Checked.under]

/-- An operation has what is read from an endpoint. -/
structure Endpoint.Reads (e : Endpoint) (o : Operation) : Prop where
  displayName : readText (describe e.key e.operation).1 = .good o.displayName
  description : readText (describe e.key e.operation).2 = .good o.description
  method : o.method = e.method
  path : o.path = e.path
  operationId : readOptional readText ((Value.atKey? "operationId" e.operation).getD .null) =
    .good o.operationId
  parameters : parametersOf e.path e.operation = .ok o.parameters
  requestRef : readOptional readText (requestRef e.operation) = .good o.requestRef
  responseRef : ∃ ref, responseRef e.operation = .ok ref ∧
    readOptional readText ref = .good o.responseRef
  isList : o.isList = (e.key == "list")
  isNested : o.isNested = decide (2 < (segments e.path).length)
  tags : o.tags = tagsOf e.operation

/-- **Operations are read from endpoints**, under the names that they are given. -/
theorem read_eq_ok_iff {e : Endpoint} {name : String} {o : Operation} :
    e.read name = .ok o ↔ o.name = name ∧ e.Reads o := by
  unfold Endpoint.read
  constructor
  · intro h
    cases hp : parametersOf e.path e.operation with
    | error failure => simp [hp, bind, Except.bind] at h
    | ok parameters =>
      cases hr : responseRef e.operation with
      | error failure => simp [hp, hr, bind, Except.bind] at h
      | ok response =>
        simp only [hp, hr, bind, Except.bind, checked_eq_ok_iff, seq_eq_good_iff, map_eq_good_iff,
          under_eq_good_iff] at h
        obtain ⟨_, _, ⟨_, _, ⟨_, _, ⟨_, _, ⟨_, hname, rfl⟩, hdescription, rfl⟩, hid, rfl⟩, hrequest,
          rfl⟩, hresponse, rfl⟩ := h
        exact ⟨rfl, hname, hdescription, rfl, rfl, hid, hp, hrequest, ⟨response, hr, hresponse⟩,
          rfl, rfl, rfl⟩
  · rintro ⟨rfl, h⟩
    obtain ⟨response, hr, hresponse⟩ := h.responseRef
    simp only [h.parameters, hr, bind, Except.bind, checked_eq_ok_iff, seq_eq_good_iff,
      map_eq_good_iff, under_eq_good_iff]
    refine ⟨_, _, ⟨_, _, ⟨_, _, ⟨_, _, ⟨_, h.displayName, rfl⟩, h.description, rfl⟩, h.operationId,
      rfl⟩, h.requestRef, rfl⟩, hresponse, ?_⟩
    rw [← h.method, ← h.isNested, ← h.path, ← h.isList, ← h.tags]

/-- An operation has the name, the method, the path and the parameters of its endpoint. -/
theorem read_spec {e : Endpoint} {name : String} {o : Operation} (h : e.read name = .ok o) :
    o.name = name ∧ o.method = e.method ∧ o.path = e.path ∧ o.isList = (e.key == "list") ∧
      parametersOf e.path e.operation = .ok o.parameters := by
  obtain ⟨hname, h⟩ := read_eq_ok_iff.mp h
  exact ⟨hname, h.method, h.path, h.isList, h.parameters⟩

end ApiNodes.Api
