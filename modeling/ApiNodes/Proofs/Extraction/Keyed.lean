import ApiNodes.Proofs.Extraction.Events

namespace ApiNodes.Api

/-!
# Values with different keys

In a document that is read no text is a key twice, whichever mapping it is in.  `Keyed` says so of a
value at all depths, inside its knots as well, and holds of what is taken out of the value.

* `Keyed.entriesOf` — a mapping that is written pair by pair;
* `Keyed.untied`, `Keyed.entries?`, `Keyed.get?` — what the views of a value show;
* `Keyed.nodup_webhookEntries` — the keys under `x-webhooks`.
-/

variable {v w document : Value} {es pairs : List (Value × Value)} {label : Nat} {key : String}

/-! ### Values -/

/-- A value that holds no other values but keys. -/
def isLeaf : Value → Bool
  | .list _ | .map _ | .pair _ _ | .knot _ _ => false
  | _ => true

/-- No text is a key twice in a mapping of the value. -/
inductive Keyed : Value → Prop
  | leaf {v : Value} (h : isLeaf v = true) : Keyed v
  | list {xs : List Value} (items : ∀ x ∈ xs, Keyed x) : Keyed (.list xs)
  | map {es : List (Value × Value)} (keys : (keyTexts es).Nodup) (values : ∀ e ∈ es, Keyed e.2) :
    Keyed (.map es)
  | pair {a b : Value} (first : Keyed a) (second : Keyed b) : Keyed (.pair a b)
  | knot (label : Nat) {body : Value} (h : Keyed body) : Keyed (.knot label body)

/-- A value that is written to a key is the value of its entry, and the others stay. -/
theorem mem_putKey {e : Value × Value} (h : e ∈ Value.putKey v w es) : e ∈ es ∨ e.2 = w := by
  induction es with
  | nil =>
    obtain rfl := List.mem_singleton.mp h
    exact .inr rfl
  | cons entry es ih =>
    rw [Value.putKey] at h
    split at h
    · rcases List.mem_cons.mp h with rfl | h
      · exact .inr rfl
      · exact .inl (List.mem_cons_of_mem _ h)
    · rcases List.mem_cons.mp h with rfl | h
      · exact .inl List.mem_cons_self
      · exact (ih h).imp_left (List.mem_cons_of_mem _)

/-- **A mapping that is written pair by pair.** -/
theorem Keyed.entriesOf (h : ∀ p ∈ pairs, Keyed p.2) : Keyed (.map (Value.entriesOf pairs)) := by
  have key : ∀ (pairs es : List (Value × Value)), (∀ p ∈ pairs, Keyed p.2) → (∀ e ∈ es, Keyed e.2) →
      ∀ e ∈ pairs.foldl (fun es p => Value.putKey p.1 p.2 es) es, Keyed e.2 := by
    intro pairs
    induction pairs with
    | nil => exact fun es _ hes => hes
    | cons p pairs ih =>
      intro es hpairs hes
      obtain ⟨hp, hpairs⟩ := List.forall_mem_cons.mp hpairs
      refine ih _ hpairs fun e he => ?_
      rcases mem_putKey he with he | heq
      · exact hes e he
      · exact heq ▸ hp
  exact .map (nodup_keyTexts_entriesOf pairs) (key pairs [] h fun e he => by cases he)

/-! ### Knots -/

/-- The items in which a label is replaced. -/
theorem replacedItems_eq (label : Nat) (w : Value) (xs : List Value) :
    Value.replacedItems label w xs = xs.map (Value.replaced label w) := by
  induction xs with
  | nil => rfl
  | cons x xs ih => rw [Value.replacedItems, ih, List.map_cons]

/-- The entries in which a label is replaced. -/
theorem replacedEntries_eq (label : Nat) (w : Value) (es : List (Value × Value)) :
    Value.replacedEntries label w es =
      es.map fun e => (Value.replaced label w e.1, Value.replaced label w e.2) := by
  induction es with
  | nil => rfl
  | cons e es ih => rw [Value.replacedEntries, ih, List.map_cons]

/-- A knot is no text, and where it replaces a label no text comes or goes. -/
theorem str?_replaced (label label' : Nat) (body v : Value) :
    (Value.replaced label (.knot label' body) v).str? = v.str? := by
  cases v with
  | again l =>
    rw [Value.replaced]
    split <;> rfl
  | knot l b =>
    rw [Value.replaced]
    split <;> rfl
  | _ => rfl

/-- The texts among the keys stay where a knot replaces a label. -/
theorem keyTexts_replacedEntries (label label' : Nat) (body : Value) (es : List (Value × Value)) :
    keyTexts (Value.replacedEntries label (.knot label' body) es) = keyTexts es := by
  rw [replacedEntries_eq, keyTexts, List.filterMap_map]
  exact List.filterMap_congr fun e _ => str?_replaced label label' body e.1

/-- **A label is replaced** by a knot with different keys. -/
theorem Keyed.replaced {label' : Nat} {body : Value} (h : Keyed v)
    (hbody : Keyed (.knot label' body)) :
    Keyed (Value.replaced label (.knot label' body) v) := by
  induction h with
  | @leaf v h =>
    cases v with
    | again l =>
      rw [Value.replaced]
      split
      · exact hbody
      · exact .leaf rfl
    | list xs => cases h
    | map es => cases h
    | pair a b => cases h
    | knot l b => cases h
    | _ => exact .leaf rfl
  | list _ ih =>
    rw [Value.replaced, replacedItems_eq]
    exact .list (List.forall_mem_map.mpr ih)
  | map keys _ ih =>
    rw [Value.replaced]
    refine .map ((keyTexts_replacedEntries ..).symm ▸ keys) ?_
    rw [replacedEntries_eq]
    exact List.forall_mem_map.mpr ih
  | pair _ _ ih ih' => exact .pair ih ih'
  | knot l h ih =>
    rw [Value.replaced]
    split
    · exact .knot l h
    · exact .knot l ih

/-! ### Views -/

/-- A value without its knot has different keys as well. -/
theorem Keyed.untied (h : Keyed v) : Keyed v.untied := by
  cases h with
  | @leaf v h =>
    cases v with
    | knot l b => cases h
    | _ => exact .leaf h
  | list items => exact .list items
  | map keys values => exact .map keys values
  | pair first second => exact .pair first second
  | knot label h => exact h.replaced (.knot label h)

/-- **The entries of a value** have different texts as keys, and such values again. -/
theorem Keyed.entries? (h : Keyed v) (hes : v.entries? = some es) :
    (keyTexts es).Nodup ∧ ∀ e ∈ es, Keyed e.2 := by
  have huntied := h.untied
  unfold Value.entries? at hes
  split at hes
  · rename_i heq
    cases hes
    rw [heq] at huntied
    cases huntied with
    | leaf h => cases h
    | map keys values => exact ⟨keys, values⟩
  · cases hes

/-- What stands under a key is such a value. -/
theorem Keyed.get? (h : Keyed v) (hw : v.get? key = some w) : Keyed w := by
  obtain ⟨es, hes, hat⟩ := Option.bind_eq_some_iff.mp hw
  obtain ⟨e, he, rfl⟩ := Value.mem_of_atKey? hat
  exact (h.entries? hes).2 e he

/-- **No text is a key twice under `x-webhooks`.** -/
theorem Keyed.nodup_webhookEntries (h : Keyed document) :
    (keyTexts (webhookEntries document)).Nodup := by
  rw [webhookEntries]
  cases hentries : (document.get? "x-webhooks").bind Value.entries? with
  | none => exact List.nodup_nil
  | some es =>
    obtain ⟨webhooks, hwebhooks, hes⟩ := Option.bind_eq_some_iff.mp hentries
    exact ((h.get? hwebhooks).entries? hes).1

end ApiNodes.Api
