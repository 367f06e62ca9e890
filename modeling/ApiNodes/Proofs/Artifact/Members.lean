import ApiNodes.Proofs.Artifact.Agreement
import ApiNodes.Proofs.Artifact.Declarations
import ApiNodes.Proofs.Extraction.Verbs

namespace ApiNodes.Artifact

open Api (IsKey LedByVerb Resource)
open Name (LeastFree methodIdentifier)
open Template

/-!
# Members of handler classes

A handler class has the method that dispatches, and one private method for each operation.  The
names of the latter are made from the keys a second time: keys of basic operations are expanded with
the resource, so that different keys can ask for one name.

* `isKey_methodIdentifier`, `namesOfMethods_spec` — the names are different identifiers, none of
  which is that of the dispatch or of the constructor;
* `leastFree_methodNames` — a method has the name that its key asks for, or that name with the least
  number that makes it differ from those before;
* `HasMembers`, `hasMembers_layout` — the members that stand in the file;
* `methods_named` — all of this for extracted resources.
-/

variable {r : Resource} {resources : List Resource} {document : Value} {config : Api.Config}
  {key name text : String}

/-! ### Names -/

/-- The name that is asked for is an identifier that begins with a letter. -/
theorem isKey_methodIdentifier (base : String) : IsKey (methodIdentifier base).toList := by
  unfold methodIdentifier
  split
  · have hword : "peration".toList.all Name.isWordChar = true := by decide
    exact ⟨'o', "peration".toList, by decide, by decide, List.all_eq_true.mp hword⟩
  · rename_i s hne
    obtain ⟨c, t, heq⟩ := List.exists_cons_of_ne_nil hne
    rw [String.toList_ofList, heq]
    refine ⟨c, t, rfl, Name.first_of_dropWhile heq, ?_⟩
    intro d hd
    have hmem : d ∈ (Name.wordChars base.toList).dropWhile fun c => !Name.isLetter c := by
      rw [heq]
      exact List.mem_cons_of_mem c hd
    exact (List.mem_filter.mp ((List.dropWhile_sublist _).mem hmem)).2

/-- The names of methods are identifiers, and none of them is a member that a class has of its own
    when the keys begin with verbs. -/
theorem namesOfMethods_spec (hkeys : ∀ o ∈ r.operations, LedByVerb o.name.toList)
    (h : name ∈ namesOfMethods r) :
    IsKey name.toList ∧ name ≠ "executeOperation" ∧ name ≠ "constructor" := by
  obtain ⟨base, hbase, hname⟩ := Name.exists_base_of_mem_uniqueAll h
  obtain ⟨o, ho, rfl⟩ := List.mem_map.mp hbase
  refine ⟨?_, (((hkeys o ho).methodIdentifier r.name).numbered hname).not_own⟩
  have hkey := isKey_methodIdentifier (Name.method o.name r.name)
  obtain rfl | ⟨n, rfl⟩ := hname
  · exact hkey
  · exact hkey.numbered n

/-- **The name of a method** is the one that its key asks for, or that name with the least number
    that makes it differ from the names before it. -/
theorem leastFree_methodNames (hkeys : (r.operations.map (·.name)).Nodup)
    {before after : List (String × String)} (h : methodNames r = before ++ (key, name) :: after) :
    LeastFree (methodIdentifier (Name.method key r.name)) (before.map Prod.snd) name := by
  have hnames : namesOfMethods r = Name.uniqueAll []
      ((r.operations.map (·.name)).map fun k => methodIdentifier (Name.method k r.name)) := by
    rw [namesOfMethods, List.map_map]
    rfl
  rw [methodNames_eq_zip hkeys, hnames] at h
  apply (Name.leastFree_of_zip h).congr
  intro x
  rw [List.append_nil, List.mem_reverse]

/-! ### Classes -/

/-- A text declares a member of a class: it gives the name between modifiers and parameters. -/
def DeclaresMember (name text : String) : Prop :=
  ∃ modifiers ∈ ["async ", "private async "], ∃ parameters body,
    text = codeLine 1 (modifiers ++ name ++ codeBlock .round 1 parameters ++ ": Promise<any> " ++
      codeBlock .curly 1 body)

/-- A file declares the class of a resource with members of the given names, in order, and with no
    others: between the brackets of the class stand their declarations, with an empty line between
    each two. -/
def HasMembers (r : Resource) (names : List String) (text : String) : Prop :=
  ∃ head members, text = head ++ codeLine 0 (classDeclaration r ++
      codeBlock .curly 0 (String.intercalate "\n" members)) ∧
    List.Forall₂ DeclaresMember names members

/-- A text, and texts behind an empty line each, are texts with an empty line between each two. -/
theorem intercalate_lines (first : String) (rest : List String) :
    String.intercalate "\n" (first :: rest) = first ++ String.join (rest.map ("\n" ++ ·)) := by
  induction rest generalizing first with
  | nil => simp
  | cons second rest ih =>
    rw [String.intercalate_cons_of_ne_nil (List.cons_ne_nil _ _), ih, List.map_cons,
      String.join_cons, String.append_assoc, String.append_assoc]

/-- The declaration of a method, without the empty line in front of it. -/
theorem exists_declaration (m : HandlerMethod) :
    ∃ declaration, m.text = "\n" ++ declaration ∧ DeclaresMember m.name declaration :=
  ⟨_, by rw [HandlerMethod.text], "private async ", by decide, _, _, rfl⟩

/-- The declaration of the dispatch. -/
theorem declares_dispatchText (methods : List HandlerMethod) :
    DeclaresMember "executeOperation" (dispatchText methods) :=
  ⟨"async ", by decide, _, _, rfl⟩

/-- **The members of a handler** are the dispatch and its methods. -/
theorem hasMembers_layout (h : Handler) :
    HasMembers h.resource ("executeOperation" :: h.methods.map (·.name)) h.layout := by
  have hmembers : ∀ methods : List HandlerMethod, ∃ declarations,
      methods.map HandlerMethod.text = declarations.map ("\n" ++ ·) ∧
        List.Forall₂ DeclaresMember (methods.map (·.name)) declarations := by
    intro methods
    induction methods with
    | nil => exact ⟨[], rfl, .nil⟩
    | cons m methods ih =>
      obtain ⟨declarations, htexts, hdeclare⟩ := ih
      obtain ⟨declaration, htext, hm⟩ := exists_declaration m
      refine ⟨declaration :: declarations, ?_, .cons hm hdeclare⟩
      rw [List.map_cons, List.map_cons, htext, htexts]
  obtain ⟨declarations, htexts, hdeclare⟩ := hmembers h.methods
  obtain ⟨head, hlayout⟩ : ∃ head, h.layout = head ++ codeLine 0 (classDeclaration h.resource ++
      codeBlock .curly 0 (dispatchText h.methods ++
        String.join (h.methods.map HandlerMethod.text))) := ⟨_, rfl⟩
  refine ⟨head, dispatchText h.methods :: declarations, ?_,
    .cons (declares_dispatchText h.methods) hdeclare⟩
  rw [intercalate_lines, ← htexts]
  exact hlayout

/-! ### Extracted resources -/

/-- The methods of a resource are named: the table has a name for every key, and the class has the
    members that it names. -/
structure MethodsNamed (r : Resource) (table : List (String × String)) : Prop where
  /-- The table has the keys of the operations, in order. -/
  keys : table.map Prod.fst = r.operations.map (·.name)
  /-- No two names are the same, nor is one that of the dispatch. -/
  distinct : ("executeOperation" :: table.map Prod.snd).Nodup
  /-- The names are identifiers that begin with a letter. -/
  identifiers : ∀ name ∈ table.map Prod.snd, IsKey name.toList
  /-- None of them is the constructor. -/
  notConstructor : "constructor" ∉ table.map Prod.snd
  /-- A name is the one that the key asks for, unless an operation before it has that name. -/
  wanted : ∀ before key name after, table = before ++ (key, name) :: after →
    LeastFree (methodIdentifier (Name.method key r.name)) (before.map Prod.snd) name
  /-- The class has these members. -/
  members : ∃ text, handlerText r = .ok text ∧
    HasMembers r ("executeOperation" :: table.map Prod.snd) text

/-- **The methods of an extracted resource are named**, each once, by identifiers that are members
    of its class and of no other meaning. -/
theorem methods_named (h : Api.extract config document = .ok resources) (hr : r ∈ resources) :
    MethodsNamed r (methodNames r) := by
  have hkeys := Api.nodup_keys h hr
  have hlength := length_namesOfMethods r
  have hnames : (methodNames r).map Prod.snd = namesOfMethods r := by
    rw [methodNames_eq_zip hkeys]
    exact List.map_snd_zip hlength.ge
  -- the keys begin with verbs, and so do the names
  have hspec : ∀ name ∈ (methodNames r).map Prod.snd,
      IsKey name.toList ∧ name ≠ "executeOperation" ∧ name ≠ "constructor" := by
    intro name hname
    rw [hnames] at hname
    exact namesOfMethods_spec (fun o ho => Api.ledByVerb_of_mem h hr ho) hname
  refine
    { keys := ?_, distinct := ?_, identifiers := fun name hname => (hspec name hname).1,
      notConstructor := fun hname => (hspec _ hname).2.2 rfl
      wanted := fun _ _ _ _ => leastFree_methodNames hkeys
      members := ⟨_, (Handler.ofResource r).text_eq, ?_⟩ }
  · rw [methodNames_eq_zip hkeys]
    exact List.map_fst_zip hlength.le
  · refine List.nodup_cons.mpr ⟨fun hname => (hspec _ hname).2.1 rfl, ?_⟩
    rw [hnames]
    exact Name.nodup_uniqueAll _ _
  · rw [hnames, ← methods_ofResource hkeys]
    exact hasMembers_layout (Handler.ofResource r)

/-- Widgets that are listed on their own and below one another, under keys that end in a number
    already. -/
def widgetsDocument : Value :=
  let listed : Value := .object [("get", .object [])]
  .object [("paths", .object
    [("/api/v1/widgets/\x7bid\x7d/widgets2", listed), ("/api/v1/widgets/\x7bid\x7d/widgets", listed),
     ("/api/v1/widgets", listed), ("/api/v1/widgets/\x7bid\x7d", .object [("delete", .object [])])])]

theorem methods_named_widgetsDocument :
    ∃ resources, Api.extract {} widgetsDocument = .ok resources ∧ ∃ r ∈ resources,
      methodNames r =
        [("listWidgets2", "listWidgets2"), ("listWidgets", "listWidgets"),
         ("list", "listWidgets3"), ("delete", "deleteWidget")] ∧
      MethodsNamed r (methodNames r) := by
  have hnames : ((Api.extract {} widgetsDocument).toOption.map fun resources =>
      resources.map methodNames) =
        some [[("listWidgets2", "listWidgets2"), ("listWidgets", "listWidgets"),
          ("list", "listWidgets3"), ("delete", "deleteWidget")]] := by
    decide +kernel
  obtain ⟨resources, h, r, hr, htable⟩ := Api.exists_mem_of_toOption hnames
  exact ⟨resources, h, r, hr, htable, methods_named h hr⟩

end ApiNodes.Artifact
