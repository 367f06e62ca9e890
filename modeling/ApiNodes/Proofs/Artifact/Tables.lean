import ApiNodes.Proofs.Artifact.RegistryLayout
import ApiNodes.Proofs.Typescript.Reading

namespace ApiNodes.Artifact

open Api (Resource)
open Template
open Typescript (afterFirst? afterFirst?_mark)

/-!
# Registry files as tables

Two of the registry files are tables: they import a name of every resource, and have an entry for it
under the name of the resource.  What they import and the keys of their entries are read back from
their lines.

* `importedNames`, `tableKeys` — the readers, and `importedNames_table`, `tableKeys_table` what they
  read of a table;
* `resourceIndexLayout_eq`, `propertyRegistryLayout_eq` — both files are tables.
-/

variable {s : String}

/-! ### Lines -/

/-- The lines of a text: what stands before each of its line feeds. -/
def lines (text : String) : List (List Char) := (Text.cut '\n' text.toList).dropLast

/-- The lines of a text that ends with a line feed, and those behind it. -/
theorem lines_append (hs : s.toList.getLast? = some '\n') (t : String) :
    lines (s ++ t) = lines s ++ lines t := by
  obtain ⟨u, hu⟩ := List.getLast?_eq_some_iff.mp hs
  have hne : Text.cut '\n' t.toList ≠ [] := by
    intro h
    have hhead := Text.head?_cut '\n' t.toList
    rw [h] at hhead
    cases hhead
  rw [lines, lines, lines, String.toList_append, hu, List.append_assoc, List.singleton_append,
    Text.cut_append, Text.cut_append, List.dropLast_append_of_ne_nil hne]
  simp [Text.cut]

/-- A line in front of others. -/
theorem lines_line (hs : '\n' ∉ s.toList) (t : String) :
    lines (s ++ ("\n" ++ t)) = s.toList :: lines t := by
  have hline : lines (s ++ "\n") = [s.toList] := by
    rw [lines, String.toList_append]
    show (Text.cut '\n' (s.toList ++ '\n' :: [])).dropLast = _
    rw [Text.cut_append, Text.cut_of_not_mem hs]
    rfl
  rw [← String.append_assoc, lines_append (by simp), hline, List.singleton_append]

/-- Lines of items, one for each. -/
theorem lines_join {α : Type} {items : List α} {line : α → String}
    (h : ∀ x ∈ items, '\n' ∉ (line x).toList) (t : String) :
    lines (String.join (items.map fun x => line x ++ "\n") ++ t) =
      items.map (fun x => (line x).toList) ++ lines t := by
  induction items with
  | nil => simp
  | cons x items ih =>
    rw [List.forall_mem_cons] at h
    rw [List.map_cons, String.join_cons, String.append_assoc, String.append_assoc, lines_line h.1,
      ih h.2, List.map_cons, List.cons_append]

/-! ### Readers -/

/-- The name that a line imports: it stands behind the bracket, up to the next blank. -/
def importedName? (line : List Char) : Option String := do
  let s ← Text.after? "import ".toList line
  let s ← afterFirst? "\x7b ".toList s
  return .ofList (s.takeWhile (· != ' '))

/-- The names that a file imports. -/
def importedNames (text : String) : List String := (lines text).filterMap importedName?

/-- The key of an entry: it stands behind the margin, up to the colon in front of the next blank. -/
def entryKey? (line : List Char) : Option String := do
  let s ← Text.after? "\t".toList line
  return .ofList (s.takeWhile (· != ' ')).dropLast

/-- The keys of the table that a file declares, from the line of the declaration up to that of the
    closing bracket. -/
def tableKeys (declaration text : String) : List String :=
  ((((lines text).dropWhile (· != declaration.toList)).drop 1).takeWhile
    (· != "\x7d;".toList)).filterMap entryKey?

/-! ### Tables -/

/-- What a table has for a resource: an entry with a key, and the import of a name. -/
structure Row where
  key : String
  value : String
  imported : String
  source : String

/-- The line of the import. -/
def Row.importLine (w : Row) : String :=
  "import " ++ ("\x7b " ++ (w.imported ++ (" " ++ ("\x7d from " ++ (codeLiteral w.source ++ ";")))))

/-- The line of the entry. -/
def Row.entryLine (w : Row) : String := "\t" ++ (w.key ++ (": " ++ w.value))

/-- No blank and no end of a line is in a text. -/
structure IsWord (s : String) : Prop where
  blank : ' ' ∉ s.toList
  line : '\n' ∉ s.toList

/-- The lines of a row are lines, and each of its names is one word. -/
structure Row.Fits (w : Row) : Prop where
  key : IsWord w.key
  value : '\n' ∉ w.value.toList
  imported : IsWord w.imported
  source : '\n' ∉ w.source.toList

/-- What stands around the rows of a table: a head with imports, the declaration of the table, and
    what stands between the two and behind the table. -/
structure Frame where
  head : String
  middle : String
  declaration : String
  tail : String

/-- The texts around the rows are lines, of which only those of the head are imports. -/
structure Frame.Valid (f : Frame) : Prop where
  head : f.head.toList.getLast? = some '\n'
  middle : f.middle.toList.getLast? = some '\n'
  declaration : '\n' ∉ f.declaration.toList
  /-- The declaration is the first line of its kind. -/
  first : f.declaration.toList ∉ lines f.head ∧ f.declaration.toList ∉ lines f.middle
  middleNames : importedNames f.middle = []
  declarationNames : importedName? f.declaration.toList = none
  tailNames : importedNames f.tail = []

/-- A file with an import and an entry for every row. -/
def table (f : Frame) (rows : List Row) : String :=
  f.head ++ (String.join (rows.map fun w => w.importLine ++ "\n") ++
    (f.middle ++ (f.declaration ++ ("\n" ++
      (String.join (rows.map fun w => w.entryLine ++ "\n") ++ ("\x7d;" ++ ("\n" ++ f.tail)))))))

section

variable {f : Frame} {rows : List Row} {w : Row}

/-- The import of a row is in one line. -/
theorem Row.Fits.importLine (h : w.Fits) : '\n' ∉ w.importLine.toList := by
  simp [Row.importLine, codeLiteral, inQuotes, h.imported.line, h.source]

/-- The entry of a row is in one line. -/
theorem Row.Fits.entryLine (h : w.Fits) : '\n' ∉ w.entryLine.toList := by
  simp [Row.entryLine, h.key.line, h.value]

/-- The lines of a table. -/
theorem lines_table (hf : f.Valid) (h : ∀ w ∈ rows, w.Fits) :
    lines (table f rows) = lines f.head ++ (rows.map (·.importLine.toList) ++ (lines f.middle ++
      (f.declaration.toList :: (rows.map (·.entryLine.toList) ++
        ("\x7d;".toList :: lines f.tail))))) := by
  rw [table, lines_append hf.head, lines_join fun w hw => (h w hw).importLine,
    lines_append hf.middle, lines_line hf.declaration, lines_join fun w hw => (h w hw).entryLine,
    lines_line (by decide)]

/-- The name of an import is read. -/
theorem Row.Fits.importedName? (h : w.Fits) :
    importedName? w.importLine.toList = some w.imported := by
  have hafter (rest : List Char) : Text.after? "import ".toList ("import ".toList ++ rest) =
      some rest := Text.after?_eq_some_iff.mpr rfl
  have hkeep : ∀ c ∈ w.imported.toList, (c != ' ') = true := fun c hc => by
    simpa using ne_of_mem_of_not_mem hc h.imported.blank
  rw [Row.importLine, Artifact.importedName?]
  simp only [String.toList_append, hafter, afterFirst?_mark, Option.bind_eq_bind, Option.bind_some,
    Option.pure_def, List.takeWhile_append_of_pos hkeep]
  simp

/-- The key of an entry is read. -/
theorem Row.Fits.entryKey? (h : w.Fits) : entryKey? w.entryLine.toList = some w.key := by
  have hafter (rest : List Char) : Text.after? "\t".toList ("\t".toList ++ rest) = some rest :=
    Text.after?_eq_some_iff.mpr rfl
  have hkeep : ∀ c ∈ w.key.toList, (c != ' ') = true := fun c hc => by
    simpa using ne_of_mem_of_not_mem hc h.key.blank
  rw [Row.entryLine, Artifact.entryKey?]
  simp only [String.toList_append, hafter, Option.bind_eq_bind, Option.bind_some, Option.pure_def,
    List.takeWhile_append_of_pos hkeep]
  simp

/-- An entry imports nothing. -/
theorem importedName?_entryLine (w : Row) : importedName? w.entryLine.toList = none := by
  simp [Row.entryLine, importedName?, Text.after?]

/-- **The imports of a table** are those of its head, and one for every row. -/
theorem importedNames_table (hf : f.Valid) (h : ∀ w ∈ rows, w.Fits) :
    importedNames (table f rows) = importedNames f.head ++ rows.map (·.imported) := by
  have himports : (rows.map (·.importLine.toList)).filterMap importedName? =
      rows.map (·.imported) := by
    rw [List.filterMap_map, ← List.filterMap_eq_map]
    exact List.filterMap_congr fun w hw => (h w hw).importedName?
  have hentries : (rows.map (·.entryLine.toList)).filterMap importedName? = [] := by
    rw [List.filterMap_map, List.filterMap_eq_nil_iff]
    exact fun w _ => importedName?_entryLine w
  have hmiddle : (lines f.middle).filterMap importedName? = [] := hf.middleNames
  have htail : (lines f.tail).filterMap importedName? = [] := hf.tailNames
  have hclose : importedName? "\x7d;".toList = none := by decide
  rw [importedNames, lines_table hf h]
  simp only [List.filterMap_append, List.filterMap_cons, himports, hmiddle, hf.declarationNames,
    hentries, hclose, htail, List.append_nil, importedNames]

/-- **The keys of a table** are those of its rows. -/
theorem tableKeys_table (hf : f.Valid) (h : ∀ w ∈ rows, w.Fits) :
    tableKeys f.declaration (table f rows) = rows.map (·.key) := by
  have hfront : ∀ line ∈ lines f.head ++ (rows.map (·.importLine.toList) ++ lines f.middle),
      (line != f.declaration.toList) = true := by
    intro line hline
    rw [bne_iff_ne]
    rintro rfl
    rw [List.mem_append, List.mem_append] at hline
    rcases hline with hline | hline | hline
    · exact hf.first.1 hline
    · -- an import tells a name, and the declaration none
      obtain ⟨w, hw, heq⟩ := List.mem_map.mp hline
      have hread := (h w hw).importedName?
      rw [heq, hf.declarationNames] at hread
      cases hread
    · exact hf.first.2 hline
  have hentries : ∀ line ∈ rows.map (·.entryLine.toList), (line != "\x7d;".toList) = true := by
    intro line hline
    obtain ⟨w, -, rfl⟩ := List.mem_map.mp hline
    simp [Row.entryLine]
  have hkeys : (rows.map (·.entryLine.toList)).filterMap entryKey? = rows.map (·.key) := by
    rw [List.filterMap_map, ← List.filterMap_eq_map]
    exact List.filterMap_congr fun w hw => (h w hw).entryKey?
  rw [tableKeys, lines_table hf h, ← List.append_assoc, ← List.append_assoc,
    List.append_assoc (lines f.head), List.dropWhile_append_of_pos hfront,
    List.dropWhile_cons_of_neg (by simp), List.drop_one, List.tail_cons,
    List.takeWhile_append_of_pos hentries, List.takeWhile_cons_of_neg (by simp), List.append_nil,
    hkeys]

end

/-- An import of a name is the line of a row. -/
theorem codeImport_eq (w : Row) :
    codeImport "import" w.imported w.source = w.importLine ++ "\n" := by
  have hkeyword : "import " = "import" ++ " " := by decide
  have hopen : "\x7b " = String.singleton '{' ++ " " := by decide
  have hclose : "\x7d from " = String.singleton '}' ++ " from " := by decide
  have hend : ";\n" = ";" ++ "\n" := by decide
  simp only [codeImport, Row.importLine, inBrackets, Bracket.opener, Bracket.closer, hkeyword,
    hopen, hclose, hend, String.append_assoc]

/-- So is an entry of an object. -/
theorem codeLine_eq (w : Row) : codeLine 1 (w.key ++ (": " ++ w.value)) = w.entryLine ++ "\n" := by
  have htab : tabs 1 = "\t" := by decide
  simp only [codeLine, Row.entryLine, htab, String.append_assoc]

/-! ### Index of handlers -/

/-- The declaration of the table of handlers. -/
def indexDeclaration : String :=
  "export const RESOURCE_HANDLER_FACTORIES: Record<string, () => ResourceHandler> = \x7b"

/-- What stands behind the table of handlers. -/
def indexTail : String :=
  "\n" ++ codeComment ["Instantiate one handler per resource"] ++ handlersBuilderText ++ "\n" ++
    codeLine 0 ("export type " ++ inBrackets .curly " ResourceHandler " ++ ";")

/-- The tail of the index has no imports. -/
theorem importedNames_indexTail : importedNames indexTail = [] := by
  -- the characters are taken from the pieces, and not from the texts that they are joined to
  simp only [importedNames, lines, indexTail, handlersBuilderText, codeLine, codeBlock, codeComment,
    inBrackets, String.toList_append, String.reduceToList]
  decide +kernel

/-- What stands around the table of handlers. -/
def indexFrame : Frame where
  head := codeLine 0 "// Resource handler exports" ++
    codeImport "import type" "ResourceHandler" "../../shared/resource-handler"
  middle := "\n" ++ codeComment ["Handler factories keyed by resource value"]
  declaration := indexDeclaration
  tail := indexTail

/-- The texts around the table of handlers are lines. -/
theorem valid_indexFrame : indexFrame.Valid where
  head := by
    simp only [indexFrame, codeLine, codeImport, codeLiteral, inQuotes, inBrackets,
      String.toList_append, String.reduceToList]
    decide +kernel
  middle := by decide +kernel
  declaration := by decide +kernel
  first := by
    simp only [indexFrame, indexDeclaration, lines, codeLine, codeImport, codeComment, codeLiteral,
      inQuotes, inBrackets, String.toList_append, String.reduceToList]
    decide +kernel
  middleNames := by decide +kernel
  declarationNames := by decide +kernel
  tailNames := importedNames_indexTail

/-- The row of a resource in the index of handlers. -/
def handlerRow (r : Resource) : Row where
  key := r.name
  value := inBrackets .round "" ++ " => new " ++ r.handlerClass ++ inBrackets .round "" ++ ","
  imported := r.handlerClass
  source := "./handlers/" ++ r.fileName ++ "-handler"

/-- **The index of handlers is a table.** -/
theorem resourceIndexLayout_eq (resources : List Resource) :
    resourceIndexLayout resources = table indexFrame (resources.map handlerRow) := by
  have hmargin : tabs 0 = "" := by decide
  have hopen : indexDeclaration = "export const RESOURCE_HANDLER_FACTORIES: Record<string, " ++
      (inBrackets .round "" ++ (" => ResourceHandler> = " ++ String.singleton '{')) := by decide
  have hclose : "\x7d;" = String.singleton '}' ++ ";" := by decide
  have himports : handlerImportText = fun r => (handlerRow r).importLine ++ "\n" :=
    funext fun r => codeImport_eq (handlerRow r)
  have hentries : handlerEntryText = fun r => (handlerRow r).entryLine ++ "\n" := by
    funext r
    rw [← codeLine_eq]
    simp only [handlerEntryText, handlerRow, String.append_assoc]
  rw [resourceIndexLayout, table, himports, hentries, List.map_map, List.map_map, hclose]
  simp only [indexFrame, indexTail, hopen, codeLine, codeBlock, inBrackets, Bracket.opener,
    Bracket.closer, hmargin, String.empty_append, String.append_assoc, Function.comp_def]

/-! ### Registry of properties -/

/-- The declaration of the table of properties. -/
def registryDeclaration : String :=
  "export const RESOURCE_PROPERTIES: Record<string, INodeProperties[]> = \x7b"

/-- What stands behind the table of properties. -/
def registryTail (default : String) : String :=
  "\n" ++ registryInterfaceText ++ "\n" ++
    codeComment ["Registry for managing all node properties in a centralized way"] ++
    registryClassText default ++ "\n" ++
    codeComment ["Build a registry over the generated resource properties"] ++ registryBuilderText

/-- A text has another one in it, between what stands before it and behind it. -/
def Around (before after s text : String) : Prop := text = before ++ (s ++ after)

/-- Nothing stands around the text itself. -/
theorem Around.refl (s : String) : Around "" "" s s := by simp [Around]

/-- More of a text in front. -/
theorem Around.left {before after text : String} (h : Around before after s text) (t : String) :
    Around (t ++ before) after s (t ++ text) := by
  rw [Around, h, String.append_assoc]

/-- More of a text at its end. -/
theorem Around.right {before after text : String} (h : Around before after s text) (t : String) :
    Around before (after ++ t) s (text ++ t) := by
  rw [Around, h, String.append_assoc, String.append_assoc]

/-- The text of a line. -/
theorem Around.codeLine {before after text : String} (h : Around before after s text)
    (depth : Nat) :
    Around (tabs depth ++ before) (after ++ "\n") s (codeLine depth text) :=
  (h.left _).right _

/-- The lines of a block. -/
theorem Around.codeBlock {before after text : String} (h : Around before after s text)
    (b : Bracket) (depth : Nat) :
    Around (.singleton b.opener ++ ("\n" ++ before)) (after ++ tabs depth ++ .singleton b.closer) s
      (codeBlock b depth text) :=
  (((h.left _).right _).left _).right _

/-- The tail of the registry has the line with the resource that it selects between two texts, which
    are the same for all resources and have no imports. -/
theorem exists_around_registryTail :
    ∃ before after, (∀ default,
        Around before after (codeEntry 3 "default" (codeLiteral default)) (registryTail default)) ∧
      before.toList.getLast? = some '\n' ∧
      importedNames before = [] ∧ importedNames after = [] := by
  refine ⟨_, _, fun default =>
    have hselector := ((Around.refl (codeEntry 3 "default" (codeLiteral default))).left _).codeBlock
      .curly 2
    have hmethod := (((((hselector.left "return ").right ";").codeLine 2).codeBlock .curly 1).left
      _).codeLine 1
    have hclass := ((((((hmethod.left "\n").left _).right _).right _).right _).codeBlock .curly
      0).left "export class PropertyRegistry implements IPropertyRegistry "
    ((((hclass.codeLine 0).left _).right _).right _).right _, ?_, ?_, ?_⟩
  -- here as well the characters are taken from the pieces
  · simp only [registryInterfaceText, codeLine, codeBlock, codeComment, codeEntry, codeLiteral,
      inQuotes, inBrackets, listType, String.toList_append, String.reduceToList]
    decide +kernel
  · simp only [importedNames, lines, registryInterfaceText, codeLine, codeBlock, codeComment,
      codeEntry, codeLiteral, inQuotes, inBrackets, listType, String.toList_append,
      String.reduceToList]
    decide +kernel
  · simp only [importedNames, lines, registryMethodText, registryBuilderText, codeLine, codeBlock,
      codeComment, inBrackets, listType, String.toList_append, String.reduceToList]
    decide +kernel

/-- The tail of the registry has no imports, if the selected resource is in one line. -/
theorem importedNames_registryTail {default : String} (h : '\n' ∉ default.toList) :
    importedNames (registryTail default) = [] := by
  obtain ⟨before, after, haround, hbefore, hnone, hnone'⟩ := exists_around_registryTail
  have hselector : codeEntry 3 "default" (codeLiteral default) ++ after =
      "\t\t\tdefault: " ++ codeLiteral default ++ "," ++ ("\n" ++ after) := by
    have hstart : "\t\t\tdefault: " = tabs 3 ++ ("default" ++ ": ") := by decide
    have hend : ",\n" = "," ++ "\n" := by decide
    simp only [codeEntry, hstart, hend, String.append_assoc]
  have hline : '\n' ∉ ("\t\t\tdefault: " ++ codeLiteral default ++ ",").toList := by
    simp [codeLiteral, inQuotes, h]
  have hquiet : importedName? ("\t\t\tdefault: " ++ codeLiteral default ++ ",").toList = none := by
    simp [importedName?, Text.after?]
  rw [haround, importedNames, lines_append hbefore, hselector, lines_line hline,
    List.filterMap_append, List.filterMap_cons, hquiet]
  exact List.append_eq_nil_iff.mpr ⟨hnone, hnone'⟩

/-- What stands around the table of properties. -/
def registryFrame (default : String) : Frame where
  head := codeImport "import type" "INodeProperties" hostPackage ++
    codeImport "import" "getResourceOptions" "./resource-config"
  middle := "\n" ++ codeComment ["Generated properties for each resource, keyed by resource value"]
  declaration := registryDeclaration
  tail := registryTail default

/-- The texts around the table of properties are lines, if the selected resource is in one. -/
theorem valid_registryFrame {default : String} (h : '\n' ∉ default.toList) :
    (registryFrame default).Valid where
  head := by
    simp only [registryFrame, hostPackage, codeImport, codeLiteral, inQuotes, inBrackets,
      String.toList_append, String.reduceToList]
    decide +kernel
  middle := by
    simp only [registryFrame]
    decide +kernel
  declaration := by
    simp only [registryFrame]
    decide +kernel
  first := by
    simp only [registryFrame, registryDeclaration, hostPackage, lines, codeImport, codeComment,
      codeLiteral, inQuotes, inBrackets, String.toList_append, String.reduceToList]
    decide +kernel
  middleNames := by
    simp only [registryFrame]
    decide +kernel
  declarationNames := by
    simp only [registryFrame]
    decide +kernel
  tailNames := importedNames_registryTail h

/-- The row of a resource in the registry of properties. -/
def propertiesRow (r : Resource) : Row where
  key := r.name
  value := r.propertiesConstant ++ ","
  imported := r.propertiesConstant
  source := "./properties/" ++ r.fileName ++ "-properties"

/-- **The registry of properties is a table.** -/
theorem propertyRegistryLayout_eq (resources : List Resource) :
    propertyRegistryLayout resources =
      table (registryFrame (defaultResource resources)) (resources.map propertiesRow) := by
  have hmargin : tabs 0 = "" := by decide
  have hopen : registryDeclaration =
      "export const RESOURCE_PROPERTIES: Record<string, INodeProperties" ++
        (inBrackets .square "" ++ ("> = " ++ String.singleton '{')) := by decide
  have hclose : "\x7d;" = String.singleton '}' ++ ";" := by decide
  have himports : propertiesImportText = fun r => (propertiesRow r).importLine ++ "\n" :=
    funext fun r => codeImport_eq (propertiesRow r)
  have hentries : propertiesEntryText = fun r => (propertiesRow r).entryLine ++ "\n" := by
    funext r
    rw [← codeLine_eq]
    simp only [propertiesEntryText, propertiesRow, String.append_assoc]
  rw [propertyRegistryLayout, table, himports, hentries, List.map_map, List.map_map, hclose]
  simp only [registryFrame, registryTail, hopen, codeLine, codeBlock, inBrackets, Bracket.opener,
    Bracket.closer, hmargin, String.empty_append, String.append_assoc, Function.comp_def]

end ApiNodes.Artifact
