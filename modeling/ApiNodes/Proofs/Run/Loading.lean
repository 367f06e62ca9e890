import ApiNodes.Proofs.Json.Keyed
import ApiNodes.Proofs.Run.Apart
import ApiNodes.Proofs.Run.Replies
import ApiNodes.Proofs.Run.Webhooks
import ApiNodes.Proofs.Yaml.Keyed

namespace ApiNodes.Run

open Api (Keyed)
open Files (Path)

/-!
# Documents that are loaded

Wherever a run takes its document from, no text is a key twice in it.  So the keys under
`x-webhooks` are different, and the codes of the events that a run returns increase.

* `keyed_readDocument`, `keyed_replyDocument` — documents from files and from the network;
* `keyed_load` — what is loaded;
* `pairwise_code_generateWebhooks` — the codes of the events of a run.
-/

variable {g : WebhookGeneration} {document : Value} {source : Option String} {timeout : Value}
  {loaded : Loaded} {events : List Api.WebhookEvent} {w w' : World}

/-! ### Sources -/

/-- A result stays where only the failures are told in another way. -/
theorem eq_ok_of_mapError {α ε ε' : Type} {f : ε → ε'} {result : Except ε α} {a : α}
    (h : result.mapError f = .ok a) : result = .ok a := by
  cases result with
  | error e => cases h
  | ok b =>
    cases h
    rfl

/-- The document in a file, be it JSON or YAML. -/
theorem keyed_readDocument {name : String} {data : ByteArray}
    (h : readDocument name data = .ok document) : Keyed document := by
  unfold readDocument at h
  split at h
  · cases h
  · split at h
    · exact Json.keyed_read (eq_ok_of_mapError h)
    · exact Yaml.keyed_read (eq_ok_of_mapError h)

/-- The document in an answer. -/
theorem keyed_replyDocument {reply : Reply} (h : replyDocument reply = .ok document) :
    Keyed document := by
  cases reply with
  | failed message => cases h
  | answered status reason body =>
    rw [replyDocument] at h
    split at h
    · cases h
    · split at h
      · rename_i hread
        cases h
        exact Json.keyed_read hread
      · split at h <;> cases h

/-- A document that is fetched. -/
theorem keyed_fetch {found : Value × String} (h : fetch source timeout w = (.ok found, w')) :
    Keyed found.1 := by
  have haddress {source : Option String} {v : World}
      (h : fetchAddress source timeout v = (.ok found, w')) : Keyed found.1 := by
    obtain ⟨_, _, -, h⟩ := bind_eq_ok_iff.mp h
    obtain ⟨reply, _, -, h⟩ := bind_eq_ok_iff.mp h
    cases hreply : replyDocument reply with
    | error e =>
      rw [hreply] at h
      cases h
    | ok document =>
      rw [hreply] at h
      cases h
      exact keyed_replyDocument hreply
  have hfile {p : Path} {v : World} (h : fetchFile p v = (.ok found, w')) : Keyed found.1 := by
    obtain ⟨_, _, -, h⟩ := bind_eq_ok_iff.mp h
    obtain ⟨data, _, -, h⟩ := bind_eq_ok_iff.mp h
    cases hdata : readDocument p.name data with
    | error e =>
      rw [hdata] at h
      cases h
    | ok document =>
      rw [hdata] at h
      cases h
      exact keyed_readDocument hdata
  unfold fetch at h
  split at h
  · exact haddress h
  · obtain ⟨there, _, -, h⟩ := bind_eq_ok_iff.mp h
    split at h
    · exact hfile h
    · exact haddress h

/-- **In a document that is loaded** no text is a key twice. -/
theorem keyed_load (h : load source timeout w = (.ok loaded, w')) : Keyed loaded.document := by
  rw [load_eq_fetch] at h
  obtain ⟨found, v, hfetch, hkeep⟩ := bind_eq_ok_iff.mp h
  rw [document_of_keep hkeep]
  exact keyed_fetch hfetch

/-! ### Events -/

/-- **The codes of the events** that a generation of webhook files returns increase, in every world
    and wherever the document comes from. -/
theorem pairwise_code_generateWebhooks (h : generateWebhooks g w = (.ok events, w')) :
    (events.map (·.code)).Pairwise (· < ·) := by
  rcases generateWebhooks_cases h with ⟨e, v, -, heq, -⟩ | ⟨loaded, v, _, _, hload, hcourse, -⟩
  · cases heq
  · cases hcourse with
    | returned hevents hrun hrecords =>
      exact Api.pairwise_code_events (keyed_load hload).nodup_webhookEntries hevents

end ApiNodes.Run
