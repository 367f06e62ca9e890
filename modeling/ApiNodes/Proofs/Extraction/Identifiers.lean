import ApiNodes.Proofs.Extraction.Plain
import ApiNodes.Proofs.Name.Casing

namespace ApiNodes.Api

open Name (IsIdentifier SpellsIdentifier)
open Typescript (Passes)

/-!
# Names of resources in code

The names of a resource stand in code as they are.  That goes well where the path segment that
names the resource spells an identifier, and nothing sees to it that it does.

* `Resource.UsableInCode` — the names of a resource are identifiers, and its class is not the
  interface that it implements;
* `usableInCode_iff` — they are when the first segments of its paths spell one, and only then;
* `isCamel_name_of_mem`, `nodup_handlerClass`, `nodup_propertiesConstant` — where all paths are
  ASCII, names are in camel case, and no two resources share one of theirs.
-/

variable {config : Config} {document : Value} {resources : List Resource} {r : Resource}
  {first : String}

/-! ### Identifiers in code -/

/-- The names of a resource can stand in code. -/
structure Resource.UsableInCode (r : Resource) : Prop where
  name : IsIdentifier r.name.toList
  handlerClass : IsIdentifier r.handlerClass.toList
  propertiesConstant : IsIdentifier r.propertiesConstant.toList
  /-- The class is not the interface that it implements. -/
  distinct : r.handlerClass ≠ "ResourceHandler"

/-- A text stands in code as it is: it leads from code to code, and needs no escape in a
    literal. -/
structure StandsAsIs (s : String) : Prop where
  code : Passes .code s.toList .code
  literal : Typescript.literal s = "'" ++ s ++ "'"

/-- An identifier stands in code as it is. -/
theorem standsAsIs_of_isIdentifier {s : String} (h : IsIdentifier s.toList) : StandsAsIs s := by
  have hwordy := Name.wordy_of_wordChars h.all
  refine ⟨Typescript.TextKind.passes (k := .word) rfl hwordy, ?_⟩
  rw [Typescript.literal, Typescript.escape, Typescript.escapeChars_of_wordy hwordy,
    String.ofList_toList]

/-! ### Resources -/

/-- The names of an extracted resource are made from one of them. -/
theorem names_of_mem (h : extract config document = .ok resources) (hr : r ∈ resources) :
    r.handlerClass = Name.handlerClass r.name ∧
      r.propertiesConstant = Name.propertiesConstant r.name := by
  obtain ⟨xs, -, -, -, heq⟩ := exists_entries h hr
  rw [heq]
  exact ⟨rfl, rfl⟩

/-- The names of an extracted resource can stand in code when the segment that names it spells an
    identifier. -/
theorem usableInCode_iff_spells (h : extract config document = .ok resources) (hr : r ∈ resources)
    (hname : r.name = Name.resource first) :
    r.UsableInCode ↔ SpellsIdentifier (Name.stem first) := by
  obtain ⟨hclass, hconstant⟩ := names_of_mem h hr
  constructor
  · intro husable
    rw [← Name.isIdentifier_resource_iff, ← hname]
    exact husable.name
  · intro hspells
    have hidentifier : IsIdentifier r.name.toList := by
      rw [hname]
      exact Name.isIdentifier_resource_iff.mpr hspells
    have hchars : r.name.toList = Name.camelChars (Name.stem first) := by
      rw [hname, Name.resource, String.toList_ofList]
      rfl
    obtain ⟨hhandler, hdistinct⟩ := Name.isIdentifier_handlerClass hspells hchars
    exact ⟨hidentifier, hclass ▸ hhandler,
      hconstant ▸ Name.isIdentifier_propertiesConstant hidentifier, hclass ▸ hdistinct⟩

/-- **The names of a resource can stand in code** when the first segments of its paths spell an
    identifier, and only then.  They stand there as they are. -/
theorem usableInCode_iff (h : extract config document = .ok resources) (hr : r ∈ resources) :
    (∃ c ∈ candidates document, c.BelongsTo config r.name) ∧
    (∀ c ∈ candidates document, c.BelongsTo config r.name →
      ∃ path first, c.path = .str path ∧ FirstSegment path first ∧
        (r.UsableInCode ↔ SpellsIdentifier (Name.stem first))) ∧
    (r.UsableInCode →
      StandsAsIs r.name ∧ StandsAsIs r.handlerClass ∧ StandsAsIs r.propertiesConstant) := by
  refine ⟨?_, fun c hc hbelongs => ?_, fun husable => ?_⟩
  · -- a resource has operations, and each of them comes from a candidate
    obtain ⟨o, ho⟩ := List.exists_mem_of_ne_nil _ (operations_ne_nil h hr)
    obtain ⟨c, hc, e, hce, hresource, -, -⟩ := origin_of_mem_operations h hr ho
    obtain ⟨xs, -, -, hfree, -⟩ := exists_entries h hr
    exact ⟨c, hc, belongsTo_iff.mpr ⟨e, hce, hresource, hfree⟩⟩
  · obtain ⟨path, method, hpath, -, hbelongs⟩ := hbelongs
    obtain ⟨first, hfirst, -, hname⟩ := hbelongs.named
    exact ⟨path, first, hpath, hfirst, usableInCode_iff_spells h hr hname.symm⟩
  · exact ⟨standsAsIs_of_isIdentifier husable.name,
      standsAsIs_of_isIdentifier husable.handlerClass,
      standsAsIs_of_isIdentifier husable.propertiesConstant⟩

/-- The segment of users spells an identifier. -/
theorem spellsIdentifier_users : SpellsIdentifier (Name.stem "users") := by
  refine ⟨['u', 's', 'e', 'r'], [], by decide +kernel,
    ⟨'u', ['s', 'e', 'r'], rfl, .inl (by decide), ?_⟩, fun v hv => by cases hv⟩
  exact fun c hc => List.all_eq_true.mp
    (show ['s', 'e', 'r'].all Name.isWordChar = true by decide) c hc

theorem usableInCode_iff_mixedDocument :
    ∃ resources, extract { excludedResources := some ["ABL"] } mixedDocument = .ok resources ∧
      ∃ r ∈ resources, r.name = "user" ∧ r.UsableInCode ∧
        (∃ c ∈ candidates mixedDocument,
          c.BelongsTo { excludedResources := some ["ABL"] } r.name ∧
            ∃ path first, c.path = .str path ∧ FirstSegment path first ∧
              SpellsIdentifier (Name.stem first)) ∧
        StandsAsIs r.name ∧ StandsAsIs r.handlerClass ∧ StandsAsIs r.propertiesConstant := by
  have hnames : ((extract { excludedResources := some ["ABL"] } mixedDocument).toOption.map
      fun resources => resources.map (·.name)) = some ["user"] := by
    decide +kernel
  obtain ⟨resources, h, hresources⟩ := exists_of_toOption hnames
  obtain ⟨r, hr, hname⟩ := List.mem_map.mp (hresources ▸ List.mem_singleton_self _)
  have hsegment : r.name = Name.resource "users" := hname.trans (by decide +kernel)
  have husable := (usableInCode_iff_spells h hr hsegment).mpr spellsIdentifier_users
  obtain ⟨⟨c, hc, hbelongs⟩, hpaths, hstands⟩ := usableInCode_iff h hr
  obtain ⟨path, first, hpath, hfirst, hiff⟩ := hpaths c hc hbelongs
  exact ⟨resources, h, r, hr, hname, husable,
    ⟨c, hc, hbelongs, path, first, hpath, hfirst, hiff.mp husable⟩, hstands husable⟩

/-- A path segment with a period. -/
def dottedDocument : Value :=
  .object [("paths", .object [("/api/v1/user.note", .object [("get", .object [])])])]

/-- **A segment with a period** makes a class that is no identifier. -/
theorem not_usableInCode_dottedDocument :
    ∃ resources, extract {} dottedDocument = .ok resources ∧ ∃ r ∈ resources,
      r.handlerClass = "User.noteResourceHandler" ∧ ¬ r.UsableInCode := by
  have hnames : ((extract {} dottedDocument).toOption.map fun resources =>
      resources.map (·.handlerClass)) = some ["User.noteResourceHandler"] := by
    decide +kernel
  obtain ⟨resources, h, hresources⟩ := exists_of_toOption hnames
  obtain ⟨r, hr, hclass⟩ := List.mem_map.mp (hresources ▸ List.mem_singleton_self _)
  refine ⟨resources, h, r, hr, hclass, fun husable => ?_⟩
  have hall := husable.handlerClass.all
  rw [hclass] at hall
  exact absurd (List.all_eq_true.mpr hall) (by decide)

/-! ### Names of ASCII paths -/

/-- All paths of a document are ASCII. -/
def AsciiPaths (document : Value) : Prop :=
  ∀ entry ∈ pathItems document, ∀ path ∈ entry.1.str?, Text.IsAscii path.toList

instance (document : Value) : Decidable (AsciiPaths document) :=
  decidable_of_iff (((pathItems document).all fun entry => entry.1.str?.all fun path =>
    decide (Text.IsAscii path.toList)) = true) (by simp [AsciiPaths, Option.all_eq_true])

/-- An operation object stands under one of the paths. -/
theorem exists_pathItem {c : Candidate} (hc : c ∈ candidates document) :
    ∃ item, (c.path, item) ∈ pathItems document := by
  rw [candidates_eq_candidatesUnder, candidatesUnder] at hc
  obtain ⟨⟨path, item⟩, hitem, hc⟩ := List.mem_flatMap.mp hc
  obtain ⟨⟨method, operation⟩, -, hc⟩ := List.mem_filterMap.mp hc
  obtain ⟨fields, -, rfl⟩ := Option.map_eq_some_iff.mp hc
  exact ⟨item, hitem⟩

/-- The name of a resource is in camel case where all paths are ASCII. -/
theorem isCamel_name_of_mem (hd : AsciiPaths document) (h : extract config document = .ok resources)
    (hr : r ∈ resources) : Name.IsCamel r.name.toList := by
  obtain ⟨c, hc, path, first, hcpath, hfirst, hname⟩ := exists_firstSegment_of_mem h hr
  obtain ⟨item, hitem⟩ := exists_pathItem hc
  rw [hcpath] at hitem
  have hascii := hd _ hitem path rfl
  -- the first segment is a part of its path
  obtain ⟨clean, query, slashes, rest, hpath, -, -, rfl, -⟩ := hfirst
  rw [hname]
  refine Name.isCamel_resource fun d hd => hascii d ?_
  simp [hpath, hd]

/-- No two resources of a document have the same name. -/
theorem nodup_name (h : extract config document = .ok resources) :
    (resources.map (·.name)).Nodup := by
  obtain ⟨xs, -, rfl⟩ := extract_eq_ok_iff.mp h
  exact (pairwise_name_grouped xs).imp ne_of_lt

/-- **No two resources have the same class**, where all paths are ASCII. -/
theorem nodup_handlerClass (hd : AsciiPaths document)
    (h : extract config document = .ok resources) : (resources.map (·.handlerClass)).Nodup := by
  refine (List.nodup_map_iff_inj_on (nodup_name h).of_map).mpr fun r hr s hs hclass => ?_
  rw [(names_of_mem h hr).1, (names_of_mem h hs).1,
    Name.handlerClass_inj (isCamel_name_of_mem hd h hr) (isCamel_name_of_mem hd h hs)] at hclass
  exact List.inj_on_of_nodup_map (nodup_name h) hr hs hclass

/-- **No two resources have the same constant.** -/
theorem nodup_propertiesConstant (h : extract config document = .ok resources) :
    (resources.map (·.propertiesConstant)).Nodup := by
  refine (List.nodup_map_iff_inj_on (nodup_name h).of_map).mpr fun r hr s hs hconstant => ?_
  rw [(names_of_mem h hr).2, (names_of_mem h hs).2, Name.propertiesConstant_inj] at hconstant
  exact List.inj_on_of_nodup_map (nodup_name h) hr hs hconstant

end ApiNodes.Api
