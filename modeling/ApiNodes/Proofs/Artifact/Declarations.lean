import ApiNodes.Artifact.Registry
import ApiNodes.Proofs.Artifact.HandlerLayout
import ApiNodes.Proofs.Artifact.PropertiesLayout

namespace ApiNodes.Artifact

open Template

/-!
# Declarations and imports

A handler file declares the class of its resource and a properties file its constant; the
registry files import them, for every resource, from the files of the resource.

* `contains_classDeclaration`, `contains_constantDeclaration` — the declarations;
* `contains_handlerImport`, `contains_propertiesImport` — the imports.
-/

variable {r : Api.Resource} {resources : List Api.Resource} {scope : Scope}
  {text s : String} {ps qs : List Part}

/-! ### Texts in texts -/

/-- A text stands somewhere in another. -/
def Contains (text s : String) : Prop := ∃ before after, text = before ++ s ++ after

/-- A text stands in itself. -/
theorem Contains.refl (s : String) : Contains s s := ⟨"", "", by simp⟩

/-- What stands in a text stands in what goes on from it. -/
theorem Contains.left (h : Contains text s) (after : String) : Contains (text ++ after) s := by
  obtain ⟨a, b, rfl⟩ := h
  exact ⟨a, b ++ after, by simp only [String.append_assoc]⟩

/-- What stands in a text stands in what ends in it. -/
theorem Contains.right (h : Contains text s) (before : String) : Contains (before ++ text) s := by
  obtain ⟨a, b, rfl⟩ := h
  exact ⟨before ++ a, b, by simp only [String.append_assoc]⟩

/-- What stands in the text of a line stands in the line. -/
theorem Contains.codeLine (h : Contains text s) (depth : Nat) : Contains (codeLine depth text) s :=
  (h.right _).left _

/-- What stands in the lines of a block stands in the block. -/
theorem Contains.codeBlock (h : Contains text s) (b : Bracket) (depth : Nat) :
    Contains (codeBlock b depth text) s :=
  (((h.right _).left _).right _).left _

/-- What stands in one of several texts stands in all of them together. -/
theorem contains_join {xs : List String} (hs : s ∈ xs) : Contains (String.join xs) s := by
  obtain ⟨before, after, rfl⟩ := List.append_of_mem hs
  rw [String.join_append, String.join_cons]
  exact ((Contains.refl s).left _).right _

/-- What stands in the text of a part of a template stands in its text. -/
theorem contains_of_fill_append (h : fill (ps ++ qs) scope = .ok text)
    (hs : (∀ t, fill ps scope = .ok t → Contains t s) ∨ ∀ t, fill qs scope = .ok t → Contains t s) :
    Contains text s := by
  obtain ⟨t, u, ht, hu, rfl⟩ := exists_of_fill_append h
  rcases hs with hs | hs
  · exact (hs t ht).left u
  · exact (hs u hu).right t

/-! ### Declarations -/

/-- The declaration of the class of a resource. -/
def classDeclaration (r : Api.Resource) : String :=
  "export class " ++ r.handlerClass ++ " implements ResourceHandler "

/-- The declaration of the constant of a resource. -/
def constantDeclaration (r : Api.Resource) : String :=
  "export const " ++ r.propertiesConstant ++ ": INodeProperties"

/-- The handler file of a resource declares its class. -/
theorem contains_classDeclaration (h : handlerText r = .ok text) :
    Contains text (classDeclaration r) := by
  rw [handlerText, Handler.text_eq] at h
  cases h
  exact ((((Contains.refl _).left _).right _).left _).right _

/-- A handler file has the text of every method. -/
theorem contains_methodText {handler : Handler} {m : HandlerMethod} (hm : m ∈ handler.methods) :
    Contains handler.layout m.text := by
  have hmethods : Contains (String.join (handler.methods.map HandlerMethod.text)) m.text :=
    contains_join (List.mem_map_of_mem hm)
  exact ((((hmethods.right _).codeBlock .curly 0).right _).codeLine 0).right _

/-- The properties file of a resource declares its constant. -/
theorem contains_constantDeclaration (h : propertiesText r = .ok text) :
    Contains text (constantDeclaration r) := by
  unfold propertiesText at h
  split at h
  · rename_i p hp
    obtain ⟨first, -, rfl⟩ := Option.map_eq_some_iff.mp hp
    rw [Properties.text_eq] at h
    cases h
    exact (((((((Contains.refl _).left _).left _).left _).left _).right _).left _).right _
  · cases h

/-! ### Imports -/

/-- The import of the class of a resource from its handler file. -/
def handlerImportText (r : Api.Resource) : String :=
  codeImport "import" r.handlerClass ("./handlers/" ++ r.fileName ++ "-handler")

/-- The import of the constant of a resource from its properties file. -/
def propertiesImportText (r : Api.Resource) : String :=
  codeImport "import" r.propertiesConstant ("./properties/" ++ r.fileName ++ "-properties")

/-- An import is filled in with the class of its resource. -/
theorem fill_handlerImport (r : Api.Resource) :
    fill handlerImport (("resource", r.toValue) :: scope) = .ok (handlerImportText r) := by
  simp [handlerImport, handlerImportText, Api.Resource.toValue]

/-- An import is filled in with the constant of its resource. -/
theorem fill_propertiesImport (r : Api.Resource) :
    fill propertiesImport (("resource", r.toValue) :: scope) = .ok (propertiesImportText r) := by
  simp [propertiesImport, propertiesImportText, Api.Resource.toValue]

/-- What is repeated for resources stands there for each of them. -/
theorem contains_of_fill_each {body : List Part} {layout : Api.Resource → String}
    (hscope : (Ref.name "resources").value scope = .ok (resourcesValue resources))
    (hbody : ∀ r, fill body (("resource", r.toValue) :: scope) = .ok (layout r))
    (hr : r ∈ resources) (h : fill [.each "resource" (.name "resources") body, .text "\n"] scope =
      .ok text) : Contains text (layout r) := by
  rw [fill_each _ layout hscope fun r _ => hbody r, fill_text, fill_nil] at h
  simp only [Except.map, Except.ok.injEq] at h
  subst h
  exact (contains_join (List.mem_map_of_mem hr)).left _

/-- The index of handlers imports the class of every resource. -/
theorem contains_handlerImport (h : resourceIndexText resources = .ok text) (hr : r ∈ resources) :
    Contains text (handlerImportText r) := by
  rw [resourceIndexText, resourceIndex] at h
  simp only [List.append_assoc] at h
  refine contains_of_fill_append h (.inr fun _ h => contains_of_fill_append h (.inr fun _ h =>
    contains_of_fill_append h (.inl fun t ht => ?_)))
  exact contains_of_fill_each (by simp) fill_handlerImport hr ht

/-- The registry of properties imports the constant of every resource. -/
theorem contains_propertiesImport (h : propertyRegistryText resources = .ok text)
    (hr : r ∈ resources) : Contains text (propertiesImportText r) := by
  unfold propertyRegistryText propertyRegistry at h
  simp only [List.append_assoc] at h
  refine contains_of_fill_append h (.inr fun _ h => contains_of_fill_append h (.inr fun _ h =>
    contains_of_fill_append h (.inl fun t ht => ?_)))
  exact contains_of_fill_each (by simp) fill_propertiesImport hr ht

end ApiNodes.Artifact
