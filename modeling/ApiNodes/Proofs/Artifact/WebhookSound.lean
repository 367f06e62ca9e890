import ApiNodes.Proofs.Artifact.Sound
import ApiNodes.Proofs.Artifact.WebhookLayout
import ApiNodes.Proofs.Extraction.Events
import ApiNodes.Proofs.Typescript.Reading

namespace ApiNodes.Artifact

open Template (Part ScopeFits Shape checkAll fits_record_nil fits_record_cons)
open Typescript (Passes Prose TextKind review unionType)

/-!
# Sound webhook files

Events whose codes are prose, which is to say in one line and without an opening brace, make files
that a review passes over.  Quotes, backslashes and bars are no obstacle.

* `passes_unionType` — the union of prose is passed over, which the check of templates leaves out;
* `review_webhookLayouts` — nothing is wrong with the files.
-/

variable {events : List Api.WebhookEvent} {e : Api.WebhookEvent} {xs : List String}
  {document : Value} {excluded : List String}

/-- What is known of an event. -/
def eventShape : Shape :=
  .record [("event_code", .text .prose), ("name", .text .prose), ("description", .prose)]

/-- An event whose texts are prose has the shape. -/
theorem fits_event (hname : Prose e.name.toList) (hcode : Prose e.code.toList) :
    eventShape.Fits e.toValue := by
  refine fits_record_cons rfl (fits_text hcode) ?_
  refine fits_record_cons rfl (fits_text hname) ?_
  refine fits_record_cons rfl ?_ (fits_record_nil _)
  rw [Shape.Fits]
  exact ⟨_, rfl⟩

/-- The file of such events is passed over. -/
theorem passes_webhookEventsLayout
    (h : ∀ e ∈ events, Prose e.name.toList ∧ Prose e.code.toList) :
    Passes .code (webhookEventsLayout events).toList .code := by
  have hcheck : checkAll [("events", .items eventShape)] .code Template.webhookEvents =
      some .code := by
    cbv
  have hscope : ScopeFits [("events", .items eventShape)] (eventsScope events) :=
    .cons (fits_items fun e he => fits_event (h e he).1 (h e he).2) .nil
  obtain ⟨text, htext, hpass⟩ := fill_sound _ hcheck hscope
  rw [fill_webhookEvents, Except.ok.injEq] at htext
  rwa [htext]

/-- A union of literals is passed over. -/
theorem passes_unionType (h : ∀ x ∈ xs, Prose x.toList) :
    Passes .code (unionType xs).toList .code := by
  have hliteral {x : String} (hx : Prose x.toList) :
      Passes .code (Typescript.literal x).toList .code :=
    Template.passes_literal (k := .prose) (by decide) hx
  cases xs with
  | nil => exact Typescript.passes_of_chars (by decide)
  | cons v xs =>
    rw [Typescript.toList_unionType, List.flatMap_def]
    refine (hliteral (h v List.mem_cons_self)).append (.flatten fun s hs => ?_)
    obtain ⟨x, hx, rfl⟩ := List.mem_map.mp hs
    have hbar : Passes .code " | ".toList .code := Typescript.passes_of_chars (by decide)
    exact hbar.append (hliteral (h x (List.mem_cons_of_mem v hx)))

/-- The template of the types checks before its one hole, which is its part number 36, and behind
    it. -/
theorem webhookTypes_parts :
    ∃ before after : List Part,
      Template.webhookTypes = before ++ .hole (.union (.name "events") "event_code") :: after ∧
      checkAll [] .code before = some .code ∧ checkAll [] .code after = some .code :=
  ⟨Template.webhookTypes.take 36, Template.webhookTypes.drop 37, rfl, by cbv, by cbv⟩

/-- The file of the types is passed over. -/
theorem passes_webhookTypesLayout (h : ∀ e ∈ events, Prose e.code.toList) :
    Passes .code (webhookTypesLayout events).toList .code := by
  obtain ⟨before, after, hparts, hbefore, hafter⟩ := webhookTypes_parts
  have hscope : ScopeFits [] (eventsScope events) := .nil
  obtain ⟨t, ht, hpass⟩ := fill_sound [] hbefore hscope
  obtain ⟨u, hu, hpass'⟩ := fill_sound [] hafter hscope
  -- the text is that of both ends around the union
  have htext := fill_webhookTypes events
  rw [hparts, Template.fill_append, Template.fill_hole, fill_codeUnion, ht, hu] at htext
  simp only [Except.map, Except.bind, Except.ok.injEq] at htext
  rw [← htext, String.toList_append, String.toList_append]
  exact hpass.append ((passes_unionType (List.forall_mem_map.mpr h)).append hpass')

/-- **Nothing is wrong with the files** of the events of a document whose codes are prose. -/
theorem review_webhookLayouts (hevents : Api.events excluded document = .ok events)
    (hcodes : ∀ e ∈ events, Prose e.code.toList) :
    review [(eventsPath, webhookEventsLayout events), (typesPath, webhookTypesLayout events)] =
      [] := by
  refine Typescript.review_eq_nil fun file hfile => ?_
  rcases List.mem_pair.mp hfile with rfl | rfl
  · refine passes_webhookEventsLayout fun e he => ⟨?_, hcodes e he⟩
    obtain ⟨hline, hbrace⟩ := hcodes e he
    rw [Api.name_of_mem_events hevents he]
    exact ⟨Api.not_mem_eventName (by decide) (by decide) hline,
      Api.not_mem_eventName (by decide) (by decide) hbrace⟩
  · exact passes_webhookTypesLayout hcodes

end ApiNodes.Artifact
