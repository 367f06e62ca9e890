import ApiNodes.Run.Generation
import Mathlib.Tactic.Common

namespace ApiNodes.Run

/-!
# Version documents that are written

The record of a generated node consists of texts, lists and mappings of texts, and one number,
so that the document it is put into has a JSON form when that document had one.
-/

variable {v : Value} {es : Entries} {xs : List Value} {key : String}

/-- A value that has a JSON form, wherever it stands. -/
def Writable (v : Value) : Prop := ∀ depth, ∃ s, Json.write .refuse depth v = .ok s

/-- Entries with text keys and values that have a JSON form. -/
def WritableEntries (es : Entries) : Prop := ∀ e ∈ es, (∃ key, e.1 = .str key) ∧ Writable e.2

/-- A text has a JSON form. -/
theorem writable_str (s : String) : Writable (.str s) := fun _ => ⟨_, rfl⟩

/-- Nothing has one. -/
theorem writable_null : Writable .null := fun _ => ⟨_, rfl⟩

/-- A number has one unless it is very long. -/
theorem writable_int {i : Int} (h : isLongInteger i = false) : Writable (.int i) := by
  intro depth
  refine ⟨toString i, ?_⟩
  simp [Json.write, Json.integerText, h]

/-- A list has one if its items do. -/
theorem writable_list (h : ∀ x ∈ xs, Writable x) : Writable (.list xs) := by
  have key : ∀ depth, ∃ texts, Json.writeItems .refuse depth xs = .ok texts := by
    intro depth
    induction xs with
    | nil => exact ⟨[], rfl⟩
    | cons x xs ih =>
      rw [List.forall_mem_cons] at h
      obtain ⟨s, hs⟩ := h.1 depth
      obtain ⟨texts, htexts⟩ := ih h.2
      refine ⟨s :: texts, ?_⟩
      simp [Json.writeItems, hs, htexts, bind, Except.bind, pure, Except.pure]
  intro depth
  obtain ⟨texts, htexts⟩ := key (depth + 1)
  exact ⟨_, by rw [Json.write, htexts]; rfl⟩

/-- A mapping has one if its entries do. -/
theorem writable_map (h : WritableEntries es) : Writable (.map es) := by
  have key : ∀ depth, ∃ texts, Json.writeEntries .refuse depth es = .ok texts := by
    intro depth
    induction es with
    | nil => exact ⟨[], rfl⟩
    | cons e es ih =>
      obtain ⟨k, v⟩ := e
      obtain ⟨⟨⟨key, hkey⟩, hv⟩, hes⟩ := List.forall_mem_cons.mp h
      obtain ⟨s, hs⟩ := hv depth
      obtain ⟨texts, htexts⟩ := ih hes
      refine ⟨(Json.textLiteral key ++ ": " ++ s) :: texts, ?_⟩
      simp only at hkey
      simp [Json.writeEntries, hkey, Json.keyText, hs, htexts, bind, Except.bind, pure, Except.pure]
  intro depth
  obtain ⟨texts, htexts⟩ := key (depth + 1)
  exact ⟨_, by rw [Json.write, htexts]; rfl⟩

/-- What is put under a text key keeps the entries writable. -/
theorem WritableEntries.putKey (h : WritableEntries es) (hv : Writable v) :
    WritableEntries (Value.putKey (.str key) v es) := by
  induction es with
  | nil =>
    rintro e he
    obtain rfl := List.mem_singleton.mp he
    exact ⟨⟨key, rfl⟩, hv⟩
  | cons e es ih =>
    obtain ⟨hhead, hes⟩ := List.forall_mem_cons.mp h
    unfold Value.putKey
    split
    · exact List.forall_mem_cons.mpr ⟨⟨hhead.1, hv⟩, hes⟩
    · exact List.forall_mem_cons.mpr ⟨hhead, ih hes⟩

/-- Entries with one more. -/
theorem WritableEntries.cons (h : WritableEntries es) (hv : Writable v) :
    WritableEntries ((.str key, v) :: es) :=
  List.forall_mem_cons.mpr ⟨⟨⟨key, rfl⟩, hv⟩, h⟩

/-- No entries. -/
theorem writableEntries_nil : WritableEntries [] := fun _ he => by cases he

/-! ### Keys -/

/-- A key is a text key when it is the text. -/
theorem sameKey_str (v : Value) (key : String) : v.sameKey (.str key) = v.isStr key := by
  cases v <;> simp [Value.sameKey, Value.isStr, Value.number?]

/-- What is put under a text key is found there, and the rest as before. -/
theorem atKey?_putKey (key key' : String) (v : Value) (es : Entries) :
    Value.atKey? key' (Value.putKey (.str key) v es) =
      if key = key' then some v else Value.atKey? key' es := by
  induction es with
  | nil => simp [Value.putKey, Value.atKey?, Value.isStr]
  | cons e es ih =>
    obtain ⟨k, x⟩ := e
    rw [Value.putKey, sameKey_str]
    by_cases hk : k.isStr key = true
    · obtain rfl : k = .str key := by
        cases k <;> simp [Value.isStr] at hk
        rw [hk]
      by_cases hkey : key = key' <;> simp [Value.atKey?, Value.isStr, hkey]
    · by_cases hkey : key = key'
      · subst hkey
        simp [Value.atKey?, hk, ih]
      · simp [Value.atKey?, hk, ih, hkey]

/-! ### Documents -/

/-- The source of a document has a JSON form. -/
theorem writable_source (source : ApiSource) : Writable source.toValue :=
  writable_map ((writableEntries_nil.cons (writable_str _)).cons (writable_str _))

/-- A filter has one. -/
theorem writable_listOrNull (texts : Option (List String)) : Writable (listOrNull texts) := by
  cases texts with
  | none => exact writable_null
  | some texts =>
    refine writable_list fun x hx => ?_
    obtain ⟨s, -, rfl⟩ := List.mem_map.mp hx
    exact writable_str s

/-- What is recorded of a node has one. -/
theorem writable_generationMetadata (config : Api.Config) {count : Nat}
    (h : isLongInteger count = false) : WritableEntries (generationMetadata config count) :=
  ((writableEntries_nil.cons (writable_map (((writableEntries_nil.cons
    (writable_listOrNull _)).cons (writable_listOrNull _)).cons (writable_listOrNull _)))).cons
      (writable_int h)).cons (writable_str _)

/-- **A first record has a JSON form.** -/
theorem exists_versionsText {metadata : Entries} (h : WritableEntries metadata)
    (source : ApiSource) (before updated generated component : String) :
    ∃ text, versionsText (withComponent (freshVersions source before) source updated component
      (componentRecord metadata generated)) = .ok text := by
  have hfresh : WritableEntries (freshVersions source before) :=
    ((writableEntries_nil.cons (writable_map writableEntries_nil)).cons
      (writable_source source)).cons (writable_str _)
  have hnone : componentsOf (freshVersions source before) = [] := by
    simp [componentsOf, freshVersions, Value.atKey?, Value.isStr, Value.entries?, Value.untied]
  have hrecord : Writable (componentRecord metadata generated) :=
    writable_map (h.putKey (writable_str _))
  have hcomponents : Writable (.map (Value.putKey (.str component)
      (componentRecord metadata generated) (componentsOf (freshVersions source before)))) := by
    rw [hnone]
    exact writable_map (writableEntries_nil.putKey hrecord)
  obtain ⟨text, htext⟩ := writable_map (((hfresh.putKey (writable_source source)).putKey
    (writable_str updated)).putKey hcomponents) 0
  refine ⟨text ++ "\n", ?_⟩
  unfold versionsText Json.document withComponent
  rw [htext]
  rfl

end ApiNodes.Run
