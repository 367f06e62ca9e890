import ApiNodes.Api.Entry
import ApiNodes.Proofs.Text.Pieces

namespace ApiNodes.Api

/-!
# References to schemas

Where a body has its reference, and which of the responses counts, said without the search that
reading makes.

* `directRef_iff` — the reference of a body is that of its JSON schema, unless the body itself is
  one;
* `hasReference_iff` — a response of success, in which a reference is found;
* `firstRef_of_hasReference`, `firstRef_of_not_hasReference` — such a response decides, and any
  other leaves it to the others;
* `firstReference_iff` — of the responses the first one counts that is of success and has a
  reference.
-/

variable {rs : List (Value × Value)} {container ref ref' status response v : Value} {s : String}

/-! ### Bodies -/

/-- A body is given on the spot, and its JSON schema is a reference. -/
def DirectRef (container ref : Value) : Prop :=
  container.get? "$ref" = none ∧ ∃ content media schema, container.get? "content" = some content ∧
    content.get? "application/json" = some media ∧ media.get? "schema" = some schema ∧
    schema.get? "$ref" = some ref

/-- **The reference of a body** is the one that its schema is, if that is there at all. -/
theorem directRef_iff (hne : ref ≠ .null) :
    DirectRef container ref ↔ schemaRef container = ref := by
  unfold DirectRef schemaRef
  cases hself : container.get? "$ref" with
  | some v => simpa using hne.symm
  | none =>
    rw [if_neg (by simp)]
    constructor
    · rintro ⟨-, content, media, schema, hcontent, hmedia, hschema, href⟩
      simp only [hcontent, hmedia, hschema, href, Option.bind_some, Option.getD_some]
    · intro h
      rw [Option.getD_eq_iff] at h
      rcases h with h | h
      · simp only [Option.bind_eq_some_iff] at h
        obtain ⟨schema, ⟨media, ⟨content, hcontent, hmedia⟩, hschema⟩, href⟩ := h
        exact ⟨rfl, content, media, schema, hcontent, hmedia, hschema, href⟩
      · exact absurd h.2.symm hne

/-- A value that counts as present is not the null value. -/
theorem ne_null_of_isTruthy (h : v.isTruthy = true) : v ≠ .null := by
  rintro rfl
  cases h

/-! ### Responses -/

/-- A status of success: its text begins with a two. -/
def Success (status : Value) : Prop :=
  ∃ text, status.text? = some text ∧ "2".toList <+: text.toList

/-- A response is one of success, and has a reference that is not empty. -/
def HasReference (response : Value × Value) : Prop :=
  Success response.1 ∧ ∃ ref, DirectRef response.2 ref ∧ ref.isTruthy = true

/-- The first response that is one of success and has a reference has this one. -/
def FirstReference (responses : List (Value × Value)) (ref : Value) : Prop :=
  ∃ before status response after, responses = before ++ (status, response) :: after ∧
    Success status ∧ DirectRef response ref ∧ ref.isTruthy = true ∧ ∀ r ∈ before, ¬HasReference r

/-- The first of some responses decides, or leaves it to the others. -/
theorem firstReference_cons_iff :
    FirstReference ((status, response) :: rs) ref ↔
      (Success status ∧ DirectRef response ref ∧ ref.isTruthy = true) ∨
        ¬HasReference (status, response) ∧ FirstReference rs ref := by
  constructor
  · rintro ⟨before, status', response', after, heq, hsuccess, href, htruthy, hbefore⟩
    cases before with
    | nil =>
      cases heq
      exact .inl ⟨hsuccess, href, htruthy⟩
    | cons r before =>
      cases heq
      rw [List.forall_mem_cons] at hbefore
      exact .inr ⟨hbefore.1, before, status', response', after, rfl, hsuccess, href, htruthy,
        hbefore.2⟩
  · rintro (⟨hsuccess, href, htruthy⟩ | ⟨hnot, before, status', response', after, rfl, hrest⟩)
    · exact ⟨[], status, response, rs, rfl, hsuccess, href, htruthy, fun r hr => by cases hr⟩
    · obtain ⟨hsuccess, href, htruthy, hbefore⟩ := hrest
      exact ⟨(status, response) :: before, status', response', after, rfl, hsuccess, href, htruthy,
        List.forall_mem_cons.mpr ⟨hnot, hbefore⟩⟩

/-- In a response that has a reference, that is the one which is found. -/
theorem hasReference_iff :
    HasReference (status, response) ↔ Success status ∧ (schemaRef response).isTruthy = true := by
  refine and_congr_right fun _ => ⟨?_, fun htruthy => ?_⟩
  · rintro ⟨ref, href, htruthy⟩
    rwa [(directRef_iff (ne_null_of_isTruthy htruthy)).mp href]
  · exact ⟨_, (directRef_iff (ne_null_of_isTruthy htruthy)).mpr rfl, htruthy⟩

/-- A status without a text stops the search. -/
theorem firstRef_of_no_text (h : status.text? = none) :
    firstRef ((status, response) :: rs) = .error .statusWithoutText := by
  rw [firstRef, isSuccess, h]
  rfl

/-- **A response that has a reference** decides. -/
theorem firstRef_of_hasReference (h : HasReference (status, response)) :
    firstRef ((status, response) :: rs) = .ok (schemaRef response) := by
  obtain ⟨⟨text, htext, hsuccess⟩, htruthy⟩ := hasReference_iff.mp h
  rw [firstRef, isSuccess, htext]
  simp [Text.startsWith_iff.mpr hsuccess, htruthy, bind, Except.bind, pure, Except.pure]

/-- **Any other response** leaves it to the others. -/
theorem firstRef_of_not_hasReference (htext : status.text? = some s)
    (h : ¬HasReference (status, response)) :
    firstRef ((status, response) :: rs) = firstRef rs := by
  have hpassed : ¬(Text.startsWith "2" s.toList && (schemaRef response).isTruthy) = true := by
    rw [Bool.and_eq_true, Text.startsWith_iff]
    exact fun ⟨hsuccess, htruthy⟩ => h (hasReference_iff.mpr ⟨⟨s, htext, hsuccess⟩, htruthy⟩)
  rw [firstRef, isSuccess, htext]
  simp [hpassed, bind, Except.bind]

/-- **The reference of responses** is that of the first one of success that has one. -/
theorem firstReference_iff (h : firstRef rs = .ok ref) :
    FirstReference rs ref' ↔ ref' ≠ .null ∧ ref = ref' := by
  induction rs with
  | nil =>
    cases h
    refine iff_of_false ?_ fun h => h.1 h.2.symm
    rintro ⟨before, _, _, _, heq, -⟩
    simp at heq
  | cons p rs ih =>
    obtain ⟨status, response⟩ := p
    rw [firstReference_cons_iff]
    by_cases href : HasReference (status, response)
    · rw [firstRef_of_hasReference href, Except.ok.injEq] at h
      subst h
      obtain ⟨hsuccess, htruthy⟩ := hasReference_iff.mp href
      constructor
      · rintro (⟨-, hdirect, htruthy'⟩ | ⟨hnot, -⟩)
        · have hne := ne_null_of_isTruthy htruthy'
          exact ⟨hne, (directRef_iff hne).mp hdirect⟩
        · exact absurd href hnot
      · rintro ⟨hne, rfl⟩
        exact .inl ⟨hsuccess, (directRef_iff hne).mpr rfl, htruthy⟩
    · cases htext : status.text? with
      | none =>
        rw [firstRef_of_no_text htext] at h
        cases h
      | some s =>
        rw [firstRef_of_not_hasReference htext href] at h
        rw [← ih h, and_iff_right href, or_iff_right]
        exact fun ⟨hsuccess, hdirect, htruthy⟩ => href ⟨hsuccess, _, hdirect, htruthy⟩

end ApiNodes.Api
