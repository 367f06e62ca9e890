import ApiNodes.Api.Event
import ApiNodes.Proofs.Extraction.Reading
import ApiNodes.Proofs.Name.Closed
import ApiNodes.Proofs.Ordered

namespace ApiNodes.Api

/-!
# The events of a document

Which keys under `x-webhooks` become events, without the walk over them: the events are sorted by
their codes, and every key that declares an event is the code of one, unless it is excluded.

* `nodup_keyTexts_entriesOf` — no text is a key twice in a mapping that is written pair by pair;
* `event?_eq_none`, `event?_eq_some` — what one key makes;
* `eventsOf_spec` — what the keys make, in order;
* `pairwise_code_events`, `exists_code_iff` — the events of a document.
-/

variable {excluded : List String} {key definition document : Value}
  {entries : List (Value × Value)} {e : WebhookEvent} {es : List WebhookEvent}

/-! ### Declarations -/

/-- The entries of a document under `x-webhooks`. -/
def webhookEntries (document : Value) : List (Value × Value) :=
  ((document.get? "x-webhooks").bind Value.entries?).getD []

/-- The definition of an event is an object that has an object under `post`. -/
def DefinesEvent (definition : Value) : Prop := (definition.mapAt? "post").isSome

/-- A key of entries declares an event. -/
def DeclaresEvent (entries : List (Value × Value)) (key : Value) : Prop :=
  ∃ definition, (key, definition) ∈ entries ∧ DefinesEvent definition

/-- The texts among the keys of entries, in order. -/
def keyTexts (entries : List (Value × Value)) : List String :=
  entries.filterMap fun entry => entry.1.str?

/-- What is written to a key leaves the texts among the keys, or adds the key behind them. -/
theorem keyTexts_putKey (key value : Value) (entries : List (Value × Value)) :
    keyTexts (Value.putKey key value entries) = keyTexts entries ∨
      keyTexts (Value.putKey key value entries) = keyTexts entries ++ key.str?.toList ∧
        ∀ s ∈ key.str?, s ∉ keyTexts entries := by
  induction entries with
  | nil => exact .inr ⟨by cases key <;> rfl, by simp [keyTexts]⟩
  | cons entry entries ih =>
    obtain ⟨other, w⟩ := entry
    rw [Value.putKey]
    split
    · exact .inl rfl
    · rename_i hdifferent
      have hcons (es : List (Value × Value)) :
          keyTexts ((other, w) :: es) = other.str?.toList ++ keyTexts es := by
        unfold keyTexts
        cases hother : other.str? <;> simp [hother]
      rw [hcons, hcons]
      rcases ih with hsame | ⟨hadded, hnew⟩
      · exact .inl (by rw [hsame])
      · refine .inr ⟨by rw [hadded, List.append_assoc], fun s hs hmem => ?_⟩
        rcases List.mem_append.mp hmem with hmem | hmem
        · -- the other key would be the same text
          cases key with
          | str a =>
            cases hs
            cases other with
            | str b =>
              cases List.mem_singleton.mp hmem
              simp [Value.sameKey] at hdifferent
            | _ => cases hmem
          | _ => cases hs
        · exact hnew s hs hmem

/-- **No text is a key twice** where a mapping is written pair by pair. -/
theorem nodup_keyTexts_entriesOf (pairs : List (Value × Value)) :
    (keyTexts (Value.entriesOf pairs)).Nodup := by
  have key : ∀ (pairs entries : List (Value × Value)), (keyTexts entries).Nodup →
      (keyTexts (pairs.foldl (fun es p => Value.putKey p.1 p.2 es) entries)).Nodup := by
    intro pairs
    induction pairs with
    | nil => exact fun entries h => h
    | cons p pairs ih =>
      intro entries h
      rw [List.foldl_cons]
      apply ih
      rcases keyTexts_putKey p.1 p.2 entries with hsame | ⟨hadded, hnew⟩
      · rwa [hsame]
      · rw [hadded]
        refine h.append ?_ ?_
        · cases p.1.str? <;> simp
        · intro s hs hmem
          exact hnew s (Option.mem_toList.mp hmem) hs
  exact key pairs [] List.nodup_nil

/-- A definition defines an event when what stands under `post` has entries. -/
theorem definesEvent_iff :
    DefinesEvent definition ↔ ((definition.get? "post").bind Value.entries?).isSome := by
  unfold DefinesEvent Value.mapAt?
  cases definition.get? "post" with
  | none => simp
  | some post =>
    cases hpost : post.entries? with
    | none => simp [Option.filter, Value.isMap, hpost]
    | some es => simp [Option.filter, Value.isMap, hpost]

/-- A further entry declares its key, or nothing. -/
theorem declaresEvent_cons {other : Value} :
    DeclaresEvent ((other, definition) :: entries) key ↔
      (key = other ∧ DefinesEvent definition) ∨ DeclaresEvent entries key := by
  simp only [DeclaresEvent, List.mem_cons, Prod.mk.injEq, or_and_right, exists_or, and_assoc,
    exists_and_left, exists_eq_left]

/-! ### One key -/

/-- A mark that is in no code is in no name of an event. -/
theorem not_mem_eventName {code : String} {mark : Char} (hmark : Text.isMark mark = true)
    (hspace : mark ≠ ' ') (h : mark ∉ code.toList) : mark ∉ (eventName code).toList := by
  have hpieces : Name.All (· ≠ mark)
      (Text.join [' '] ((Text.cut '.' code.toList).map Text.capitalizeChars)) := by
    refine Name.all_join (fun c hc => ?_) fun p hp => ?_
    · rw [List.mem_singleton.mp hc]
      exact hspace.symm
    · obtain ⟨piece, hpiece, rfl⟩ := List.mem_map.mp hp
      exact (Name.closed_ne hmark hspace).capitalizeChars fun c hc =>
        ne_of_mem_of_not_mem (Text.mem_of_mem_cut hpiece hc) h
  intro hmem
  rw [eventName, String.toList_ofList] at hmem
  exact hpieces mark hmem rfl

/-- The event of a code has the code, and the name that is made of it. -/
theorem eventOf_spec {code : String} {post : List (Value × Value)}
    (h : eventOf code post = .ok e) : e.code = code ∧ e.name = eventName code := by
  unfold eventOf checked at h
  dsimp only at h
  split at h
  · rename_i e' he
    rw [Except.ok.injEq] at h
    subst h
    simp only [seq_eq_good_iff, map_eq_good_iff] at he
    obtain ⟨_, _, ⟨_, _, rfl⟩, _, rfl⟩ := he
    exact ⟨rfl, rfl⟩
  · cases h

/-- A key that makes no event declares none or is excluded. -/
theorem event?_eq_none (h : event? excluded key definition = .ok none)
    (hdefines : DefinesEvent definition) : ∃ code ∈ excluded, key = .str code := by
  obtain ⟨post, hpost⟩ := Option.isSome_iff_exists.mp (definesEvent_iff.mp hdefines)
  rw [event?, hpost] at h
  cases key with
  | str code =>
    simp only at h
    split at h
    · rename_i hmem
      exact ⟨code, hmem, rfl⟩
    · cases hevent : eventOf code post <;> simp [hevent, Functor.map, Except.map] at h
  | _ => cases h

/-- A key that makes an event is its code, and is not excluded. -/
theorem event?_eq_some (h : event? excluded key definition = .ok (some e)) :
    DefinesEvent definition ∧ key = .str e.code ∧ e.code ∉ excluded ∧
      e.name = eventName e.code := by
  rw [definesEvent_iff]
  unfold event? at h
  split at h
  · cases h
  · rename_i post hpost
    refine ⟨by rw [hpost]; rfl, ?_⟩
    -- only a text is looked for among the excluded codes
    cases key with
    | str code =>
      simp only at h
      split at h
      · cases h
      · rename_i hmem
        cases hevent : eventOf code post with
        | error failure => simp [hevent, Functor.map, Except.map] at h
        | ok e' =>
          rw [hevent] at h
          cases h
          obtain ⟨hcode, hname⟩ := eventOf_spec hevent
          rw [hcode]
          exact ⟨rfl, hmem, hname⟩
    | _ => cases h

/-! ### All keys -/

/-- The events of a first key are in front of those of the others. -/
theorem eventsOf_cons (h : eventsOf excluded ((key, definition) :: entries) = .ok es) :
    ∃ first rest, event? excluded key definition = .ok first ∧
      eventsOf excluded entries = .ok rest ∧ es = first.toList ++ rest := by
  rw [eventsOf] at h
  cases hfirst : event? excluded key definition with
  | error failure => simp [hfirst, bind, Except.bind] at h
  | ok first =>
    cases hrest : eventsOf excluded entries with
    | error failure => simp [hfirst, hrest, bind, Except.bind] at h
    | ok rest =>
      simp only [hfirst, hrest, bind, Except.bind, pure, Except.pure, Except.ok.injEq] at h
      exact ⟨first, rest, rfl, rfl, h.symm⟩

/-- **The events of entries**, in order: their codes are text keys, and all the keys that declare an
    event and are not excluded are among them. -/
theorem eventsOf_spec (h : eventsOf excluded entries = .ok es) :
    (es.map (·.code)).Sublist (keyTexts entries) ∧ (∀ e ∈ es, e.name = eventName e.code) ∧
      ∀ key, (∃ e ∈ es, key = .str e.code) ↔
        DeclaresEvent entries key ∧ ∀ code ∈ excluded, key ≠ .str code := by
  induction entries generalizing es with
  | nil =>
    cases h
    simp [DeclaresEvent]
  | cons entry entries ih =>
    obtain ⟨own, definition⟩ := entry
    obtain ⟨first, rest, hfirst, hrest, rfl⟩ := eventsOf_cons h
    obtain ⟨hkeys, hnames, hcodes⟩ := ih hrest
    cases first with
    | none =>
      -- the events are those of the other keys, and this one declares none that is wanted
      have hexcluded := event?_eq_none hfirst
      refine ⟨hkeys.trans ?_, hnames, fun key => ?_⟩
      · exact List.Sublist.filterMap _ (List.sublist_cons_self _ _)
      · show (∃ e ∈ rest, key = .str e.code) ↔ _
        rw [hcodes, declaresEvent_cons]
        constructor
        · rintro ⟨hdeclares, hkey⟩
          exact ⟨.inr hdeclares, hkey⟩
        · rintro ⟨⟨rfl, hdefines⟩ | hdeclares, hkey⟩
          · obtain ⟨code, hmem, hcode⟩ := hexcluded hdefines
            exact absurd hcode (hkey code hmem)
          · exact ⟨hdeclares, hkey⟩
    | some e =>
      -- the first event has this key
      obtain ⟨hdefines, rfl, hexcluded, hname⟩ := event?_eq_some hfirst
      refine ⟨hkeys.cons_cons e.code, List.forall_mem_cons.mpr ⟨hname, hnames⟩, fun key => ?_⟩
      show (∃ e' ∈ e :: rest, key = .str e'.code) ↔ _
      rw [List.exists_mem_cons_iff, hcodes, declaresEvent_cons]
      constructor
      · rintro (rfl | ⟨hdeclares, hkey⟩)
        · refine ⟨.inl ⟨rfl, hdefines⟩, fun code hmem heq => ?_⟩
          cases heq
          exact hexcluded hmem
        · exact ⟨.inr hdeclares, hkey⟩
      · rintro ⟨⟨rfl, -⟩ | hdeclares, hkey⟩
        · exact .inl rfl
        · exact .inr ⟨hdeclares, hkey⟩

/-- The events of a document are those of its entries, sorted by code. -/
theorem events_eq_ok_iff :
    events excluded document = .ok es ↔
      ∃ found, eventsOf excluded (webhookEntries document) = .ok found ∧
        es = found.mergeSort fun a b => decide (a.code ≤ b.code) := by
  have hevents : events excluded document = (eventsOf excluded (webhookEntries document)).map
      fun found => found.mergeSort fun a b => decide (a.code ≤ b.code) := by
    show (eventsOf excluded (webhookEntries document)).bind _ = _
    cases eventsOf excluded (webhookEntries document) <;> rfl
  rw [hevents]
  cases eventsOf excluded (webhookEntries document) with
  | error failure => simp [Except.map]
  | ok found => simp [Except.map, eq_comm]

/-- **The codes of events increase**, where no text is a key twice. -/
theorem pairwise_code_events (hkeys : (keyTexts (webhookEntries document)).Nodup)
    (h : events excluded document = .ok es) : (es.map (·.code)).Pairwise (· < ·) := by
  obtain ⟨found, hfound, rfl⟩ := events_eq_ok_iff.mp h
  exact pairwise_map_sorted WebhookEvent.code (hkeys.sublist (eventsOf_spec hfound).1)

/-- **A key is the code of an event** exactly when it declares one and is not excluded. -/
theorem exists_code_iff (h : events excluded document = .ok es) (key : Value) :
    (∃ e ∈ es, key = .str e.code) ↔
      DeclaresEvent (webhookEntries document) key ∧ ∀ code ∈ excluded, key ≠ .str code := by
  obtain ⟨found, hfound, rfl⟩ := events_eq_ok_iff.mp h
  simp only [List.mem_mergeSort]
  exact (eventsOf_spec hfound).2.2 key

/-- The name of an event is made of its code. -/
theorem name_of_mem_events (h : events excluded document = .ok es) (he : e ∈ es) :
    e.name = eventName e.code := by
  obtain ⟨found, hfound, rfl⟩ := events_eq_ok_iff.mp h
  exact (eventsOf_spec hfound).2.1 e (List.mem_mergeSort.mp he)

end ApiNodes.Api
