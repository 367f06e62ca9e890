import ApiNodes.Proofs.Artifact.Agreement
import ApiNodes.Proofs.Artifact.RegistryLayout
import ApiNodes.Proofs.Extraction.Rewording

namespace ApiNodes.Artifact

open Api (Resource Operation Config Reworded extract)

/-!
# Words and code

The files that carry out requests are made from names, methods, paths and parameters alone, so
that the words of a document do not reach them.

* `layout_congr`, `resourceIndexLayout_congr`, `propertyRegistryLayout_congr` — resources that make
  the same requests have the same files;
* `reworded_same_code` — so have reworded documents.
-/

variable {r r' : Resource} {o o' : Operation} {resources resources' : List Resource}
  {config : Config} {document document' : Value}

/-! ### Handlers -/

/-- The same request is carried out by the same method. -/
theorem ofOperation_congr (h : o.SameRequest o') (name : String) :
    HandlerMethod.ofOperation name o = HandlerMethod.ofOperation name o' := by
  have hqueries : o.queryParameters.isEmpty = o'.queryParameters.isEmpty := by
    have hlength := congrArg List.length h.queryNames
    rw [List.length_map, List.length_map] at hlength
    rw [Bool.eq_iff_iff, List.isEmpty_iff_length_eq_zero, List.isEmpty_iff_length_eq_zero, hlength]
  simp only [HandlerMethod.ofOperation, h.name, h.method, h.path, h.isList, h.pathParameters,
    hqueries, Operation.isWrite]

/-- The same requests are carried out by the same methods. -/
theorem methods_congr (h : r.SameRequests r') :
    (Handler.ofResource r).methods = (Handler.ofResource r').methods := by
  have hkeys : r.operations.map (·.name) = r'.operations.map (·.name) :=
    Api.map_eq_map_of_forall₂ h.operations fun _ _ ho => ho.name
  have hnames : methodNames r = methodNames r' := by
    have hmethods (r : Resource) : r.operations.map
        (fun o => Name.methodIdentifier (Name.method o.name r.name)) =
        (r.operations.map (·.name)).map fun key =>
          Name.methodIdentifier (Name.method key r.name) := by
      rw [List.map_map]
      rfl
    rw [methodNames, methodNames, namesOfMethods, namesOfMethods, hmethods, hmethods, hkeys, h.name]
  -- the names of methods depend on all the operations, and the rest of a method on its own
  show r.operations.map _ = r'.operations.map _
  rw [hnames]
  refine Api.map_eq_map_of_forall₂ h.operations fun o o' ho => ?_
  rw [ho.name]
  exact ofOperation_congr ho _

/-- **Resources that make the same requests have the same handler.** -/
theorem layout_congr (h : r.SameRequests r') :
    (Handler.ofResource r).layout = (Handler.ofResource r').layout := by
  have hmethods := methods_congr h
  have htypes : (Handler.ofResource r).typeImports = (Handler.ofResource r').typeImports := by
    rw [Handler.typeImports, Handler.typeImports, hmethods]
  have hruntime :
      (Handler.ofResource r).runtimeImports = (Handler.ofResource r').runtimeImports := by
    rw [Handler.runtimeImports, Handler.runtimeImports, hmethods]
  have hlabel : (Handler.ofResource r).resource.displayName =
      (Handler.ofResource r').resource.displayName := h.displayName
  have hclass : (Handler.ofResource r).resource.handlerClass =
      (Handler.ofResource r').resource.handlerClass := h.handlerClass
  rw [Handler.layout, Handler.layout, htypes, hruntime, hlabel, hclass, hmethods]

/-! ### Registry files -/

/-- Resources that make the same requests have the same index of handlers. -/
theorem resourceIndexLayout_congr (h : List.Forall₂ Resource.SameRequests resources resources') :
    resourceIndexLayout resources = resourceIndexLayout resources' := by
  have himports := Api.map_eq_map_of_forall₂ h fun r r' hr =>
    show handlerImportText r = handlerImportText r' by
      rw [handlerImportText, handlerImportText, hr.handlerClass, hr.fileName]
  have hentries := Api.map_eq_map_of_forall₂ h fun r r' hr =>
    show handlerEntryText r = handlerEntryText r' by
      rw [handlerEntryText, handlerEntryText, hr.name, hr.handlerClass]
  rw [resourceIndexLayout, resourceIndexLayout, himports, hentries]

/-- Resources that make the same requests have the same registry of properties. -/
theorem propertyRegistryLayout_congr
    (h : List.Forall₂ Resource.SameRequests resources resources') :
    propertyRegistryLayout resources = propertyRegistryLayout resources' := by
  have himports := Api.map_eq_map_of_forall₂ h fun r r' hr =>
    show propertiesImportText r = propertiesImportText r' by
      rw [propertiesImportText, propertiesImportText, hr.propertiesConstant, hr.fileName]
  have hentries := Api.map_eq_map_of_forall₂ h fun r r' hr =>
    show propertiesEntryText r = propertiesEntryText r' by
      rw [propertiesEntryText, propertiesEntryText, hr.name, hr.propertiesConstant]
  have hdefault : defaultResource resources = defaultResource resources' := by
    rw [defaultResource, defaultResource, Api.map_eq_map_of_forall₂ h fun _ _ hr => hr.name]
  rw [propertyRegistryLayout, propertyRegistryLayout, himports, hentries, hdefault]

/-! ### Documents -/

/-- What an operation asks for: its key, its method and its path. -/
def signature (o : Operation) : String × String × String := (o.name, o.method, o.path)

/-- Two results render the same text. -/
def SameText (x y : Except Template.RenderError String) : Prop := ∃ text, x = .ok text ∧ y = .ok text

/-- **Words do not reach code.**  From reworded documents, under a configuration that looks at no
    words, the same resources are extracted with operations of the same keys, methods and paths in
    the same order, and the same handlers, index of handlers and registry of properties are
    rendered for them. -/
theorem reworded_same_code (hconfig : config.Wordless) (hd : Reworded document document')
    (h : extract config document = .ok resources)
    (h' : extract config document' = .ok resources') :
    List.Forall₂ (fun r r' => r.name = r'.name ∧
      r.operations.map signature = r'.operations.map signature ∧
      SameText (handlerText r) (handlerText r')) resources resources' ∧
    SameText (resourceIndexText resources) (resourceIndexText resources') ∧
    SameText (propertyRegistryText resources) (propertyRegistryText resources') := by
  have hsame := Api.forall₂_sameRequests hconfig hd h h'
  have hsignatures {r r' : Resource} (hr : r.SameRequests r') :
      r.operations.map signature = r'.operations.map signature :=
    Api.map_eq_map_of_forall₂ hr.operations fun o o' ho => by
      rw [signature, signature, ho.name, ho.method, ho.path]
  have hhandlers {r r' : Resource} (hr : r.SameRequests r') :
      SameText (handlerText r) (handlerText r') :=
    ⟨_, (Handler.ofResource r).text_eq,
      (Handler.ofResource r').text_eq.trans (congrArg Except.ok (layout_congr hr).symm)⟩
  refine ⟨hsame.imp fun r r' hr => ⟨hr.name, hsignatures hr, hhandlers hr⟩, ?_, ?_⟩
  · exact ⟨_, resourceIndexText_eq resources,
      (resourceIndexText_eq resources').trans
        (congrArg Except.ok (resourceIndexLayout_congr hsame).symm)⟩
  · exact ⟨_, propertyRegistryText_eq resources,
      (propertyRegistryText_eq resources').trans
        (congrArg Except.ok (propertyRegistryLayout_congr hsame).symm)⟩

/-- The document of orders, in other words. -/
def wordyOrdersDocument : Value :=
  .object [("info", .object [("title", .str "Orders")]), ("paths", .object
    [("/api/v1/orders", .object
      [("get", .object
        [("summary", .str "All orders"), ("tags", .list [.str "Sales"]),
         ("operationId", .str "orders"), ("parameters", .list [.object
          [("in", .str "query"), ("name", .str "state"), ("description", .str "One state only"),
           ("schema", .object [("type", .str "integer")])]])]),
       ("post", .object [("description", .str "Place an order."), ("requestBody", .object []),
         ("responses", .object [("201", .object [])])])]),
     ("/api/v1/orders/\x7bnumber\x7d", .object
      [("get", .object []), ("put", .object [("summary", .str "Change")])])])]

/-- The two documents of orders differ in words. -/
theorem reworded_ordersDocument : Reworded ordersDocument wordyOrdersDocument := by
  have hstate : Api.ParameterReworded
      (.object [("in", .str "query"), ("name", .str "state")])
      (.object [("in", .str "query"), ("name", .str "state"),
        ("description", .str "One state only"),
        ("schema", .object [("type", .str "integer")])]) := by
    intro key hdescription hschema
    simp [Template.get?_object, lookup?, Ne.symm hdescription, Ne.symm hschema]
  have hget : Api.OperationReworded
      (.object [("parameters", .list [.object [("in", .str "query"), ("name", .str "state")]])])
      (.object [("summary", .str "All orders"), ("tags", .list [.str "Sales"]),
         ("operationId", .str "orders"), ("parameters", .list [.object
          [("in", .str "query"), ("name", .str "state"), ("description", .str "One state only"),
           ("schema", .object [("type", .str "integer")])]])]) :=
    .some (.cons hstate .nil)
  have hnone {v v' : Value} (h : v.entries?.map Api.declaredParameters = some [])
      (h' : v'.entries?.map Api.declaredParameters = some []) : Api.OperationReworded v v' := by
    obtain ⟨fields, hfields, hparameters⟩ := Option.map_eq_some_iff.mp h
    obtain ⟨fields', hfields', hparameters'⟩ := Option.map_eq_some_iff.mp h'
    rw [Api.OperationReworded, hfields, hfields']
    refine .some ?_
    rw [Api.DeclareAlike, hparameters, hparameters']
    exact .nil
  exact .cons ⟨rfl, .cons ⟨rfl, hget⟩ (.cons ⟨rfl, hnone rfl rfl⟩ .nil)⟩
    (.cons ⟨rfl, .cons ⟨rfl, hnone rfl rfl⟩ (.cons ⟨rfl, hnone rfl rfl⟩ .nil)⟩ .nil)

theorem reworded_same_code_ordersDocument :
    ∃ resources resources', extract {} ordersDocument = .ok resources ∧
      extract {} wordyOrdersDocument = .ok resources' ∧
      resources.map (·.description) = ["Manage order"] ∧
      resources'.map (·.description) = ["Manage sales"] ∧
      SameText (resourceIndexText resources) (resourceIndexText resources') ∧
      List.Forall₂ (fun r r' => SameText (handlerText r) (handlerText r')) resources resources' := by
  have hwords : ((extract {} ordersDocument).toOption.map fun resources =>
      resources.map (·.description)) = some ["Manage order"] := by
    decide +kernel
  have hwords' : ((extract {} wordyOrdersDocument).toOption.map fun resources =>
      resources.map (·.description)) = some ["Manage sales"] := by
    decide +kernel
  obtain ⟨resources, h, hresources⟩ := Api.exists_of_toOption hwords
  obtain ⟨resources', h', hresources'⟩ := Api.exists_of_toOption hwords'
  obtain ⟨hsame, hindex, -⟩ := reworded_same_code ⟨rfl, rfl⟩ reworded_ordersDocument h h'
  exact ⟨resources, resources', h, h', hresources, hresources', hindex,
    hsame.imp fun _ _ hr => hr.2.2⟩

end ApiNodes.Artifact
