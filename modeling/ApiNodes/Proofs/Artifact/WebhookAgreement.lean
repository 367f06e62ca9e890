import ApiNodes.Proofs.Artifact.WebhookSound
import ApiNodes.Proofs.Extraction.Events

namespace ApiNodes.Artifact

open Typescript

/-!
# Agreement of the webhook files

The two files of a trigger node are made apart from one another.  `optionValues?` reads the values
of the options that one offers, and `unionMembers?` the members of the type that the other declares;
if the files are sound, both are the codes of the events.

* `optionValues?_layout`, `unionMembers?_layout` — what is read of the layouts;
* `not_mem_code_of_imbalance?` — in a sound file of the types no code holds an end of line;
* `webhooks_agree` — the events of a document, and what its files say.
-/

variable {events : List Api.WebhookEvent} {e : Api.WebhookEvent} {document : Value}
  {excluded : List String}

/-! ### Readers -/

/-- Read an option: the value that it offers, and what follows it. -/
def optionValue? (s : List Char) : Option (String × List Char) := do
  let (_, s) ← literalAfter? "\t\x7b\n\t\tname: " s
  let (value, s) ← literalAfter? ",\n\t\tvalue: " s
  let (_, s) ← literalAfter? ",\n\t\tdescription: " s
  let rest ← Text.after? ",\n\t\x7d,\n".toList s
  return (value, rest)

/-- The values of the options in a file of events. -/
def optionValues? (text : String) : Option (List String) := do
  let s ← afterFirst? "export const WEBHOOK_EVENT_OPTIONS = [\n".toList text.toList
  let (values, s) := readMany optionValue? s
  let _ ← Text.after? "];".toList s
  return values

/-- The members of the union in a file of types. -/
def unionMembers? (text : String) : Option (List String) := do
  let s ← afterFirst? "export type WebhookEventCode = ".toList text.toList
  let (members, s) ← readUnion? s
  let _ ← Text.after? ";".toList s
  return members

/-! ### Options -/

/-- The text of an option: three literals, each behind its name. -/
theorem eventOptionText_eq (e : Api.WebhookEvent) :
    eventOptionText e = "\t\x7b\n\t\tname: " ++ (literal e.name ++ (",\n\t\tvalue: " ++
      (literal e.code ++ (",\n\t\tdescription: " ++
        (Template.codeLiteral (description e.description) ++ ",\n\t\x7d,\n"))))) := by
  have hname : "\t\x7b\n\t\tname: " = Template.tabs 1 ++ (String.singleton '{' ++
      ("\n" ++ (Template.tabs 2 ++ ("name" ++ ": ")))) := by decide
  have hvalue : ",\n\t\tvalue: " = ",\n" ++ (Template.tabs 2 ++ ("value" ++ ": ")) := by decide
  have hdescription : ",\n\t\tdescription: " =
      ",\n" ++ (Template.tabs 2 ++ ("description" ++ ": ")) := by decide
  have hend : ",\n\t\x7d,\n" = ",\n" ++ (Template.tabs 1 ++ (String.singleton '}' ++ ",\n")) := by
    decide
  rw [hname, hvalue, hdescription, hend]
  simp only [eventOptionText, Template.codeElement, Template.codeBlock, Template.inBrackets,
    Template.codeEntry, Template.Bracket.opener, Template.Bracket.closer, String.append_assoc]

/-- A description is a literal in one line. -/
theorem exists_literal_description (s : String) :
    ∃ shown, '\n' ∉ shown.toList ∧ Template.codeLiteral (description s) = literal shown := by
  refine ⟨.ofList (shorten (cleanDescription s.toList)), ?_, ?_⟩
  · rw [String.toList_ofList]
    exact (shows_shorten s.toList).noLineEnds '\n' (by decide)
  · rw [description]
    show Template.codeLiteral _ = Template.codeLiteral (escape _)
    rw [escape, String.toList_ofList]

/-- An option is read as its code. -/
theorem optionValue?_eventOptionText (hname : '\n' ∉ e.name.toList)
    (hcode : '\n' ∉ e.code.toList) (rest : List Char) :
    optionValue? ((eventOptionText e).toList ++ rest) = some (e.code, rest) := by
  obtain ⟨shown, hshown, hdescription⟩ := exists_literal_description e.description
  have hend : Text.after? ",\n\t\x7d,\n".toList (",\n\t\x7d,\n".toList ++ rest) = some rest :=
    Text.after?_eq_some_iff.mpr rfl
  rw [eventOptionText_eq, hdescription]
  simp only [String.toList_append, List.append_assoc, optionValue?, literalAfter?_literal _ hname,
    literalAfter?_literal _ hcode, literalAfter?_literal _ hshown, hend, Option.bind_eq_bind,
    Option.bind_some, Option.pure_def]

/-- The file of the events has the options behind the name of their list. -/
theorem webhookEventsLayout_eq (events : List Api.WebhookEvent) :
    webhookEventsLayout events = eventsHead ++ ("export const WEBHOOK_EVENT_OPTIONS = [\n" ++
      (String.join (events.map eventOptionText) ++ ("];" ++ ("\n" ++ eventsTail)))) := by
  have hopen : "export const WEBHOOK_EVENT_OPTIONS = [\n" = Template.tabs 0 ++
      ("export const WEBHOOK_EVENT_OPTIONS = " ++ (String.singleton '[' ++ "\n")) := by decide
  have hclose : "];" = Template.tabs 0 ++ (String.singleton ']' ++ ";") := by decide
  rw [hopen, hclose]
  simp only [webhookEventsLayout, Template.codeLine, Template.codeBlock, Template.inBrackets,
    Template.Bracket.opener, Template.Bracket.closer, String.append_assoc]

/-- **The options are read as the codes of the events**, where no end of line is in a name or a
    code. -/
theorem optionValues?_layout
    (h : ∀ e ∈ events, '\n' ∉ e.name.toList ∧ '\n' ∉ e.code.toList) :
    optionValues? (webhookEventsLayout events) = some (events.map (·.code)) := by
  have hhead : afterFirst? "export const WEBHOOK_EVENT_OPTIONS = [\n".toList
      (eventsHead.toList ++ "export const WEBHOOK_EVENT_OPTIONS = [\n".toList.dropLast) = none := by
    decide +kernel
  generalize htail : "\n".toList ++ eventsTail.toList = tail
  have hstop : optionValue? ("];".toList ++ tail) = none := rfl
  have hoptions : readMany optionValue?
      ((events.flatMap fun e => (eventOptionText e).toList) ++ ("];".toList ++ tail)) =
      (events.map (·.code), "];".toList ++ tail) := by
    refine readMany_flatMap (fun e he rest => ?_) (fun e _ => ?_) hstop
    · exact optionValue?_eventOptionText (h e he).1 (h e he).2 rest
    · rw [eventOptionText_eq, String.toList_append]
      exact List.append_ne_nil_of_left_ne_nil (by decide) _
  have hclose : Text.after? "];".toList ("];".toList ++ tail) = some tail :=
    Text.after?_eq_some_iff.mpr rfl
  rw [webhookEventsLayout_eq, optionValues?]
  simp only [String.toList_append, htail, String.toList_join, List.flatMap_map,
    afterFirst?_append hhead, hoptions, hclose, Option.bind_eq_bind, Option.bind_some,
    Option.pure_def]

/-! ### Members -/

/-- The file of the types has the union behind the name of the type. -/
theorem webhookTypesLayout_eq (events : List Api.WebhookEvent) :
    webhookTypesLayout events = typesHead ++ ("export type WebhookEventCode = " ++
      (unionType (events.map (·.code)) ++ (";" ++ ("\n" ++ typesTail)))) := by
  have hmargin : Template.tabs 0 = "" := by decide
  simp only [webhookTypesLayout, Template.codeLine, hmargin, String.empty_append,
    String.append_assoc]

/-- What stands before the union: the name of its type does not begin there, and a scan comes back
    to code with it. -/
theorem typesHead_spec :
    afterFirst? "export type WebhookEventCode = ".toList
        (typesHead.toList ++ "export type WebhookEventCode = ".toList.dropLast) = none ∧
      ∃ τ, Scan.run {} (typesHead.toList ++ "export type WebhookEventCode = ".toList) = .ok τ ∧
        τ.mode = .code := by
  -- the characters are taken from the pieces, and not from the text that they are joined to
  have hspec : afterFirst? "export type WebhookEventCode = ".toList
        (typesHead.toList ++ "export type WebhookEventCode = ".toList.dropLast) = none ∧
      ((Scan.run {} (typesHead.toList ++ "export type WebhookEventCode = ".toList)).toOption.map
        fun τ => τ.mode) = some .code := by
    simp only [typesHead, Template.codeComment, Template.codeLine, Template.codeBlock,
      Template.inBrackets, Template.tabs, Template.Bracket.opener, Template.Bracket.closer,
      Template.originLine, List.map_cons, List.map_nil, String.toList_append, String.toList_join,
      String.toList_ofList, String.toList_singleton, List.flatMap_cons, List.flatMap_nil,
      String.reduceToList]
    decide +kernel
  exact ⟨hspec.1, Api.exists_of_toOption hspec.2⟩

/-- **The union is read as the codes of the events**, where no end of line is in one. -/
theorem unionMembers?_layout (h : ∀ e ∈ events, '\n' ∉ e.code.toList) :
    unionMembers? (webhookTypesLayout events) = some (events.map (·.code)) := by
  generalize htail : "\n".toList ++ typesTail.toList = tail
  have hunion : readUnion? ((unionType (events.map (·.code))).toList ++ (";".toList ++ tail)) =
      some (events.map (·.code), ";".toList ++ tail) :=
    readUnion?_unionType (List.forall_mem_map.mpr h) rfl
  have hclose : Text.after? ";".toList (";".toList ++ tail) = some tail :=
    Text.after?_eq_some_iff.mpr rfl
  rw [webhookTypesLayout_eq, unionMembers?]
  simp only [String.toList_append, htail, afterFirst?_append typesHead_spec.1, hunion, hclose,
    Option.bind_eq_bind, Option.bind_some, Option.pure_def]

/-- **In a sound file of the types no code holds an end of line.** -/
theorem not_mem_code_of_imbalance? (h : imbalance? (webhookTypesLayout events).toList = none) :
    ∀ e ∈ events, '\n' ∉ e.code.toList := by
  obtain ⟨-, τ, hrun, hcode⟩ := typesHead_spec
  rw [webhookTypesLayout_eq, String.toList_append, String.toList_append, String.toList_append,
    ← List.append_assoc] at h
  have hscannable := scannable_of_imbalance? hrun hcode h
  intro e he
  exact hscannable.not_mem_of_unionType e.code (List.mem_map_of_mem he)

/-! ### Agreement -/

/-- **The webhook files agree.**  The events of a document in which no text is a key twice, as in
    one that is read (`Json.keyed_read`, `Yaml.keyed_read`), have increasing codes, which are the
    keys that declare an event and are not excluded.  Their files are rendered, and if a review finds
    nothing wrong with them, the options of one and the type of the other have the codes of the
    events, in order. -/
theorem webhooks_agree (hkeys : (Api.keyTexts (Api.webhookEntries document)).Nodup)
    (h : Api.events excluded document = .ok events) :
    (events.map (·.code)).Pairwise (· < ·) ∧
    (∀ key, (∃ e ∈ events, key = .str e.code) ↔
      Api.DeclaresEvent (Api.webhookEntries document) key ∧ ∀ code ∈ excluded, key ≠ .str code) ∧
    ∃ options types, webhookFiles events = .ok [(eventsPath, options), (typesPath, types)] ∧
      (review [(eventsPath, options), (typesPath, types)] = [] →
        optionValues? options = some (events.map (·.code)) ∧
        unionMembers? types = some (events.map (·.code))) := by
  refine ⟨Api.pairwise_code_events hkeys h, Api.exists_code_iff h, _, _, webhookFiles_eq events,
    fun hreview => ?_⟩
  -- the file of the types tells that no code holds an end of line, and so no name of an event does
  have hbrackets : bracketFault? typesPath (webhookTypesLayout events) = none :=
    (review_eq_nil_iff_forall.mp hreview (typesPath, webhookTypesLayout events) (by simp)).2
  have htypescript : Text.endsWith ".ts" typesPath.toList = true := by decide
  rw [bracketFault?, if_pos htypescript, Option.map_eq_none_iff] at hbrackets
  have hcodes := not_mem_code_of_imbalance? hbrackets
  refine ⟨optionValues?_layout fun e he => ⟨?_, hcodes e he⟩, unionMembers?_layout hcodes⟩
  rw [Api.name_of_mem_events h he]
  exact Api.not_mem_eventName (by decide) (by decide) (hcodes e he)

/-- Events with quotes, a backslash and a bar in a code, one that is not wanted, and an entry that
    declares none. -/
def eventsDocument : Value :=
  .object [("x-webhooks", .object
    [("order.paid", .object [("post", .object [("summary", .str "An order is paid.\n")])]),
     ("order.lost", .object [("post", .object [])]),
     ("it\x27s \\\x27 | \x27", .object [("post", .object [])]),
     ("order.note", .object [("get", .object [])])])]

theorem webhooks_agree_eventsDocument :
    (Api.keyTexts (Api.webhookEntries eventsDocument)).Nodup ∧
    ∃ events, Api.events ["order.lost"] eventsDocument = .ok events ∧
      ∃ options types, webhookFiles events = .ok [(eventsPath, options), (typesPath, types)] ∧
        review [(eventsPath, options), (typesPath, types)] = [] ∧
        optionValues? options = some ["it\x27s \\\x27 | \x27", "order.paid"] ∧
        unionMembers? types = some ["it\x27s \\\x27 | \x27", "order.paid"] := by
  have hkeys : (Api.keyTexts (Api.webhookEntries eventsDocument)).Nodup := by decide +kernel
  have hfound : ((Api.eventsOf ["order.lost"] (Api.webhookEntries eventsDocument)).toOption.map
      fun found => found.map (·.code)) = some ["order.paid", "it\x27s \\\x27 | \x27"] := by
    decide +kernel
  obtain ⟨found, hfound, hunsorted⟩ := Api.exists_of_toOption hfound
  have hevents := Api.events_eq_ok_iff.mpr ⟨found, hfound, rfl⟩
  obtain ⟨hincreasing, -, options, types, hfiles, hread⟩ := webhooks_agree hkeys hevents
  -- the sorted codes are those two, and in increasing order there is one way to list them
  have hcodes : (found.mergeSort fun a b => decide (a.code ≤ b.code)).map (·.code) =
      ["it\x27s \\\x27 | \x27", "order.paid"] := by
    refine List.Perm.eq_of_pairwise (fun a b _ _ hab hba => absurd hba (lt_asymm hab)) hincreasing
      (by decide) ?_
    have hperm := (List.mergeSort_perm found fun a b => decide (a.code ≤ b.code)).map (·.code)
    rw [hunsorted] at hperm
    exact hperm.trans (List.Perm.swap _ _ _)
  have hprose : ∀ code ∈ (found.mergeSort fun a b => decide (a.code ≤ b.code)).map (·.code),
      Prose code.toList := by
    rw [hcodes]
    decide
  have hreview : review [(eventsPath, options), (typesPath, types)] = [] := by
    rw [webhookFiles_eq] at hfiles
    cases hfiles
    exact review_webhookLayouts hevents fun e he => hprose e.code (List.mem_map_of_mem he)
  rw [hcodes] at hread
  exact ⟨hkeys, _, hevents, options, types, hfiles, hreview, hread hreview⟩

end ApiNodes.Artifact
