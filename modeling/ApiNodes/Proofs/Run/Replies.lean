import ApiNodes.Proofs.Run.Steps
import ApiNodes.Proofs.Text.Encoding
import ApiNodes.Run.Download

namespace ApiNodes.Run

/-!
# Documents from the network

The first bytes of an answer tell how its text is encoded, and a text in UTF-8 is never taken for
another encoding.  So the document of an answer is what stands in its body.

* `replyText_eq_self`, `replyDocument_answered` — what is read of an answer;
* `document_of_load`, `map_document_load` — a document that is loaded without a source is that of
  the answer.
-/

variable {body : String} {document : Value} {timeout : Value} {loaded : Loaded} {w w' : World}

/-- **The text of an answer is its body**, if that has no null characters and no mark in front. -/
theorem replyText_eq_self (hnull : Char.ofNat 0 ∉ body.toList)
    (hmark : ∀ c ∈ body.toList.head?, c.toNat ≠ 0xfeff) : replyText body = body := by
  unfold replyText
  split
  · rename_i c r hbody
    rw [if_neg (hmark c (by rw [hbody]; rfl))]
    have hbytes : ∀ b ∈ body.toUTF8.toList, b ≠ 0 := fun b => Text.ne_zero_of_mem_toUTF8 hnull
    dsimp only
    rcases Text.encodingOf?_of_ne_zero hbytes with h | h
    · rw [h, Option.bind_none, Option.getD_none]
    · rw [h, Option.bind_some, Text.decode?_toUTF8, Option.getD_some]
  · rfl

/-- A text that is read has no mark in front. -/
theorem ne_mark_of_read (hread : Json.read body = .ok document) :
    ∀ c ∈ body.toList.head?, c.toNat ≠ 0xfeff := by
  unfold Json.read at hread
  dsimp only at hread
  split at hread
  · rename_i c r hbody
    rw [hbody]
    intro d hd hmark
    obtain rfl := Option.mem_some_iff.mp hd
    rw [if_pos hmark] at hread
    cases hread
  · cases hread

/-- **The document of an answer** is what is read of its body, if that has no null characters. -/
theorem replyDocument_answered {reason : Option String} (hnull : Char.ofNat 0 ∉ body.toList)
    (hread : Json.read body = .ok document) :
    replyDocument (.answered 200 reason body) = .ok document := by
  rw [replyDocument, if_neg (by decide), replyText_eq_self hnull (ne_mark_of_read hread), hread]

/-- What is loaded is the document that is kept. -/
theorem document_of_keep {source : String} (h : keep document source w = (.ok loaded, w')) :
    loaded.document = document := by
  unfold keep at h
  cases hversion : Api.version? document with
  | none =>
    rw [hversion] at h
    cases h
  | some version =>
    cases hcontent : Json.document .asText document with
    | error fault =>
      rw [hversion, hcontent] at h
      cases h
    | ok content =>
      rw [hversion, hcontent] at h
      obtain ⟨scratch, v, -, h⟩ := bind_eq_ok_iff.mp h
      cases h
      rfl

/-- **A document that is loaded without a source** is that of the answer of the network. -/
theorem document_of_load (h : load none timeout w = (.ok loaded, w')) :
    ∃ reply, lookup? defaultAddress w.replies = some reply ∧
      replyDocument reply = .ok loaded.document := by
  obtain ⟨_, v, hinform, h⟩ := bind_eq_ok_iff.mp h
  obtain ⟨reply, v', hask, h⟩ := bind_eq_ok_iff.mp h
  have hreplies : v.replies = w.replies := by
    cases hinform
    rfl
  have hreply : reply = (lookup? defaultAddress w.replies).getD
      (.failed ("unreachable: " ++ defaultAddress)) := by
    rw [← hreplies]
    cases hask
    rfl
  cases hdocument : replyDocument reply with
  | error e =>
    rw [hdocument] at h
    cases h
  | ok document =>
    rw [hdocument] at h
    rw [document_of_keep h, ← hdocument]
    -- an address that is not known has no document
    cases hknown : lookup? defaultAddress w.replies with
    | none =>
      rw [hreply, hknown] at hdocument
      cases hdocument
    | some known =>
      rw [hreply, hknown]
      exact ⟨known, rfl, rfl⟩

/-- So it is what stands in the body of the answer. -/
theorem map_document_load {reason : Option String}
    (hreply : lookup? defaultAddress w.replies = some (.answered 200 reason body))
    (hnull : Char.ofNat 0 ∉ body.toList) (hread : Json.read body = .ok document)
    (hloads : (load none timeout w).1.toBool = true) :
    (load none timeout w).1.toOption.map (·.document) = some document := by
  cases hload : load none timeout w with
  | mk result w' =>
    rw [hload] at hloads
    cases result with
    | error e => cases hloads
    | ok loaded =>
      obtain ⟨reply, hfound, hdocument⟩ := document_of_load hload
      obtain rfl := Option.some.inj (hreply.symm.trans hfound)
      rw [replyDocument_answered hnull hread] at hdocument
      exact congrArg some (Except.ok.inj hdocument).symm

end ApiNodes.Run
