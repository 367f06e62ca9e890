import ApiNodes.Proofs.Typescript.TextKind
import ApiNodes.Template.Basic

namespace ApiNodes.Template

open Typescript (Spot TextKind Passes)

/-!
# Templates that are sound for all values

A template is checked once, against the shapes of the values that its names stand for.  The
check follows the template from spot to spot: fixed text leads on by its characters, a hole
by the kind of its text, and what is repeated or left out has to lead back to where it began.

* `Shape`, `Shape.Fits` — what the check knows of a value;
* `checkAll` — the spot after a template;
* `checkAll_sound` — a template that checks can be filled in every scope that fits, and the
  text passes as the check says.
-/

/-! ### Shapes of values -/

/-- What is known of a value. -/
inductive Shape
  /-- There is a value. -/
  | any
  /-- The value has a text of a kind. -/
  | text (k : TextKind)
  /-- Any text at all; it is only to be written as a description. -/
  | prose
  | items (of : Shape)
  | record (fields : List (String × Shape))

mutual

/-- A value has a shape. -/
def Shape.Fits : Shape → Value → Prop
  | .any, _ => True
  | .text k, v => k.Holds v.text.toList
  | .prose, v => ∃ s, v = .str s
  | .items of, v => ∃ xs, v = .list xs ∧ ∀ x ∈ xs, of.Fits x
  | .record fields, v => fieldsFit fields v

/-- A value has members of the shapes. -/
def fieldsFit : List (String × Shape) → Value → Prop
  | [], _ => True
  | (n, shape) :: fields, v => (∃ w, v.get? n = some w ∧ shape.Fits w) ∧ fieldsFit fields v

end

/-- A value of any kind has no members to ask for. -/
theorem fits_record_nil (v : Value) : (Shape.record []).Fits v := by
  rw [Shape.Fits, fieldsFit]
  trivial

/-- One more member of its shape. -/
theorem fits_record_cons {v w : Value} {n : String} {shape : Shape}
    {fields : List (String × Shape)} (hget : v.get? n = some w) (hw : shape.Fits w)
    (h : (Shape.record fields).Fits v) : (Shape.record ((n, shape) :: fields)).Fits v := by
  rw [Shape.Fits] at h ⊢
  rw [fieldsFit]
  exact ⟨⟨w, hget, hw⟩, h⟩

/-- The shapes by name; the first of a name counts. -/
abbrev Env := List (String × Shape)

/-- A scope has values of the shapes. -/
def ScopeFits (env : Env) (scope : Scope) : Prop :=
  ∀ n shape, lookup? n env = some shape → ∃ v, lookup? n scope = some v ∧ shape.Fits v

variable {env : Env} {scope : Scope} {shape : Shape} {v : Value} {n : String}

/-- Nothing is asked of a scope. -/
theorem ScopeFits.nil : ScopeFits [] scope := by
  intro n shape h
  cases h

/-- One more value of its shape. -/
theorem ScopeFits.cons (hv : shape.Fits v) (h : ScopeFits env scope) :
    ScopeFits ((n, shape) :: env) ((n, v) :: scope) := by
  intro n' shape' h'
  rw [lookup?] at h' ⊢
  split at h'
  · rename_i hn
    cases h'
    exact ⟨v, by rw [if_pos hn], hv⟩
  · rename_i hn
    rw [if_neg hn]
    exact h n' shape' h'

/-- A member of a record has its shape. -/
theorem fits_of_lookup? {fields : List (String × Shape)} (h : fieldsFit fields v)
    (hn : lookup? n fields = some shape) : ∃ w, v.get? n = some w ∧ shape.Fits w := by
  induction fields with
  | nil => cases hn
  | cons field fields ih =>
    obtain ⟨n', shape'⟩ := field
    rw [fieldsFit] at h
    rw [lookup?] at hn
    split at hn
    · rename_i heq
      cases hn
      exact heq ▸ h.1
    · exact ih h.2 hn

/-! ### References -/

/-- The shape at the end of a way. -/
def Ref.shape? (env : Env) : Ref → Option Shape
  | name n => lookup? n env
  | field root n =>
    match lookup? root env with
    | some (.record fields) => lookup? n fields
    | _ => none

/-- At the end of a way with a shape there is a value of the shape. -/
theorem Ref.value_of_shape? {r : Ref} (hs : ScopeFits env scope) (h : r.shape? env = some shape) :
    ∃ v, r.value scope = .ok v ∧ shape.Fits v := by
  cases r with
  | name n =>
    obtain ⟨v, hv, hfit⟩ := hs n shape h
    exact ⟨v, by simp [Ref.value, valueOf, hv], hfit⟩
  | field root n =>
    simp only [Ref.shape?] at h
    split at h
    · rename_i fields hroot
      obtain ⟨v, hv, hfit⟩ := hs root _ hroot
      rw [Shape.Fits] at hfit
      obtain ⟨w, hw, hfit⟩ := fits_of_lookup? hfit h
      refine ⟨w, ?_, hfit⟩
      simp [Ref.value, valueOf, memberOf, hv, hw, bind, Except.bind]
    · cases h

/-- A text of its kind. -/
theorem Ref.text_of_shape? {r : Ref} {k : TextKind} (hs : ScopeFits env scope)
    (h : r.shape? env = some (.text k)) :
    ∃ v, r.value scope = .ok v ∧ k.Holds v.text.toList := by
  obtain ⟨v, hv, hfit⟩ := Ref.value_of_shape? hs h
  rw [Shape.Fits] at hfit
  exact ⟨v, hv, hfit⟩

/-- A list of items of their shape. -/
theorem Ref.items_of_shape? {r : Ref} (hs : ScopeFits env scope)
    (h : r.shape? env = some (.items shape)) :
    ∃ xs, r.value scope = .ok (.list xs) ∧ ∀ x ∈ xs, shape.Fits x := by
  obtain ⟨v, hv, hfit⟩ := Ref.value_of_shape? hs h
  rw [Shape.Fits] at hfit
  obtain ⟨xs, rfl, hfit⟩ := hfit
  exact ⟨xs, hv, hfit⟩

/-! ### Holes -/

/-- The inside of a literal in single quotes. -/
def quotedSpot : Spot := ⟨.literal '\x27', false⟩

/-- The spot after a hole.  Rows of texts stand in code only, and unions are not checked. -/
def Hole.after (env : Env) (p : Spot) : Hole → Option Spot
  | plain r =>
    match r.shape? env with
    | some (.text k) => k.after p
    | _ => none
  | escaped r =>
    match r.shape? env with
    | some (.text k) => k.afterEscaped p
    | _ => none
  | described r =>
    match r.shape? env with
    | some .prose => TextKind.escaped.after p
    | _ => none
  | listed r =>
    match r.shape? env with
    | some (.items (.text k)) => if p = .code ∧ k.after .code = some .code then some p else none
    | _ => none
  | quoted r =>
    match r.shape? env with
    | some (.items (.text k)) =>
      if p = .code ∧ k.afterEscaped quotedSpot = some quotedSpot then some p else none
    | _ => none
  | union _ _ => none
  | choice r yes no =>
    match r.shape? env, p.chars yes.toList with
    | some _, some q => if p.chars no.toList = some q then some q else none
    | _, _ => none

/-- Pieces of code with a comma and a blank between each two. -/
theorem passes_intercalate {texts : List String}
    (h : ∀ s ∈ texts, Passes .code s.toList .code) :
    Passes .code (String.intercalate ", " texts).toList .code := by
  have hcomma : Passes .code ", ".toList .code := Typescript.passes_of_chars (by decide)
  induction texts with
  | nil => exact .nil _
  | cons s texts ih =>
    have hs := h s List.mem_cons_self
    have ih := ih fun t ht => h t (List.mem_cons_of_mem s ht)
    by_cases hnil : texts = []
    · subst hnil
      rwa [String.intercalate_singleton]
    · rw [String.intercalate_cons_of_ne_nil hnil, String.toList_append, String.toList_append]
      exact (hs.append hcomma).append ih

/-- A row of texts of a kind, each in a form that passes. -/
theorem passes_row {k : TextKind} {xs : List Value} {form : String → String}
    (hxs : ∀ x ∈ xs, (Shape.text k).Fits x)
    (hform : ∀ s : String, k.Holds s.toList → Passes .code (form s).toList .code) :
    Passes .code (String.intercalate ", " (xs.map fun x => form x.text)).toList .code := by
  refine passes_intercalate fun s hs => ?_
  obtain ⟨x, hx, rfl⟩ := List.mem_map.mp hs
  have hfit := hxs x hx
  rw [Shape.Fits] at hfit
  exact hform x.text hfit

/-- A literal in single quotes around the escaped form of a text. -/
theorem passes_literal {k : TextKind} {s : String}
    (hk : k.afterEscaped quotedSpot = some quotedSpot) (hs : k.Holds s.toList) :
    Passes .code (Typescript.literal s).toList .code := by
  have h := Passes.quote (b := false) (by decide) (TextKind.passes_escaped hk hs)
  simpa [Spot.code, Typescript.literal, Typescript.escape] using h

/-- A hole of a template that checks can be filled, and its text passes. -/
theorem Hole.after_sound {h : Hole} {p q : Spot} (hs : ScopeFits env scope)
    (hq : h.after env p = some q) :
    ∃ text : String, h.fill scope = .ok text ∧ Passes p text.toList q := by
  cases h with
  | plain r =>
    simp only [Hole.after] at hq
    split at hq
    · rename_i k hr
      obtain ⟨v, hv, hkind⟩ := Ref.text_of_shape? hs hr
      exact ⟨v.text, by simp [Hole.fill, hv, bind, Except.bind, pure, Except.pure],
        TextKind.passes hq hkind⟩
    · cases hq
  | escaped r =>
    simp only [Hole.after] at hq
    split at hq
    · rename_i k hr
      obtain ⟨v, hv, hkind⟩ := Ref.text_of_shape? hs hr
      refine ⟨Typescript.escape v.text,
        by simp [Hole.fill, hv, bind, Except.bind, pure, Except.pure], ?_⟩
      simpa [Typescript.escape] using TextKind.passes_escaped hq hkind
    · cases hq
  | described r =>
    -- a description is escaped whatever the text, so no kind is asked of it
    simp only [Hole.after] at hq
    split at hq
    · rename_i hr
      obtain ⟨v, hv, hfit⟩ := Ref.value_of_shape? hs hr
      rw [Shape.Fits] at hfit
      obtain ⟨s, rfl⟩ := hfit
      exact ⟨Typescript.description s, by simp [Hole.fill, hv, bind, Except.bind, describe],
        TextKind.passes hq (Typescript.escaped_description s)⟩
    · cases hq
  | listed r =>
    simp only [Hole.after] at hq
    split at hq
    · rename_i k hr
      obtain ⟨⟨rfl, hk⟩, hp⟩ := Option.ite_none_right_eq_some.mp hq
      cases hp
      obtain ⟨xs, hv, hfit⟩ := Ref.items_of_shape? hs hr
      refine ⟨String.intercalate ", " (xs.map Value.text), ?_,
        passes_row hfit fun s => TextKind.passes hk⟩
      simp [Hole.fill, hv, itemsOf, Value.untied, bind, Except.bind, pure, Except.pure]
    · cases hq
  | quoted r =>
    simp only [Hole.after] at hq
    split at hq
    · rename_i k hr
      obtain ⟨⟨rfl, hk⟩, hp⟩ := Option.ite_none_right_eq_some.mp hq
      cases hp
      obtain ⟨xs, hv, hfit⟩ := Ref.items_of_shape? hs hr
      refine ⟨Typescript.quotedList (xs.map Value.text), ?_, ?_⟩
      · simp [Hole.fill, hv, itemsOf, Value.untied, bind, Except.bind, pure, Except.pure]
      · rw [Typescript.quotedList, List.map_map]
        exact passes_row hfit fun s => passes_literal hk
    · cases hq
  | union r n => cases hq
  | choice r yes no =>
    simp only [Hole.after] at hq
    split at hq
    · rename_i shape q' hr hyes
      split at hq
      · rename_i hno
        cases hq
        obtain ⟨v, hv, -⟩ := Ref.value_of_shape? hs hr
        refine ⟨if v.isTruthy then yes else no,
          by simp [Hole.fill, hv, bind, Except.bind, pure, Except.pure], ?_⟩
        split
        · exact Typescript.passes_of_chars hyes
        · exact Typescript.passes_of_chars hno
      · cases hq
    · cases hq

/-! ### Parts -/

/-- A condition that can be decided: what it asks about is there. -/
def Test.known (env : Env) : Test → Bool
  | truthy r => (r.shape? env).isSome
  | notNull (.name _) => true
  | notNull (.field root _) => (lookup? root env).isSome

mutual

/-- The spot after a part.  Brackets and literals begin in code. -/
def Part.after (env : Env) (p : Spot) : Part → Option Spot
  | .text s => p.chars s.toList
  | .hole h => h.after env p
  | .group b body =>
    if p.region = .code ∧ (p.brace = true → Typescript.opensHole b.opener = false) then
      match checkAll env ⟨.code, b.opener == '{'⟩ body with
      | some ⟨.code, _⟩ => some .code
      | _ => none
    else none
  | .literal quote body =>
    if p.region = .code ∧ Typescript.isQuote quote = true then
      match checkAll env ⟨.literal quote, false⟩ body with
      | some ⟨.literal q, _⟩ => if q = quote then some .code else none
      | _ => none
    else none
  | .each item r body =>
    match r.shape? env with
    | some (.items shape) => if checkAll ((item, shape) :: env) p body = some p then some p else none
    | _ => none
  | .when test body => if test.known env ∧ checkAll env p body = some p then some p else none

/-- The spot after parts in a row. -/
def checkAll (env : Env) (p : Spot) : List Part → Option Spot
  | [] => some p
  | part :: parts => (part.after env p).bind fun q => checkAll env q parts

end

/-- A known condition is decided. -/
theorem Test.holds_of_known {test : Test} (hs : ScopeFits env scope) (h : test.known env = true) :
    ∃ b, test.holds scope = .ok b := by
  cases test with
  | truthy r =>
    obtain ⟨shape, hr⟩ := Option.isSome_iff_exists.mp h
    obtain ⟨v, hv, -⟩ := Ref.value_of_shape? hs hr
    exact ⟨v.isTruthy, by simp [Test.holds, hv, bind, Except.bind, pure, Except.pure]⟩
  | notNull r =>
    cases r with
    | name n =>
      rw [Test.holds]
      split <;> exact ⟨_, rfl⟩
    | field root n =>
      obtain ⟨shape, hr⟩ := Option.isSome_iff_exists.mp h
      obtain ⟨v, hv, -⟩ := hs root shape hr
      simp only [Test.holds, valueOf, hv, bind, Except.bind]
      split <;> exact ⟨_, rfl⟩

/-- What is repeated for items of a shape leads back if it does for each. -/
theorem mapM_of_items {xs : List Value} {p : Spot} {f : Value → Except RenderError (List Char)}
    (h : ∀ x ∈ xs, ∃ s, f x = .ok s ∧ Passes p s p) :
    ∃ texts, xs.mapM f = .ok texts ∧ Passes p texts.flatten p := by
  induction xs with
  | nil => exact ⟨[], rfl, .nil p⟩
  | cons x xs ih =>
    obtain ⟨s, hx, hpass⟩ := h x List.mem_cons_self
    obtain ⟨texts, hxs, hpass'⟩ := ih fun y hy => h y (List.mem_cons_of_mem x hy)
    refine ⟨s :: texts, ?_, by simpa using hpass.append hpass'⟩
    simp [List.mapM_cons, hx, hxs, bind, Except.bind, pure, Except.pure]

mutual

/-- A part that checks can be filled, and its text passes. -/
theorem Part.after_sound {part : Part} {env : Env} {scope : Scope} {p q : Spot}
    (hs : ScopeFits env scope) (hq : part.after env p = some q) :
    ∃ s, part.fill scope = .ok s ∧ Passes p s q := by
  cases part with
  | text s =>
    rw [Part.after] at hq
    exact ⟨s.toList, by rw [Part.fill], Typescript.passes_of_chars hq⟩
  | hole h =>
    rw [Part.after] at hq
    obtain ⟨text, htext, hpass⟩ := Hole.after_sound hs hq
    exact ⟨text.toList, by simp [Part.fill, htext, bind, Except.bind, pure, Except.pure], hpass⟩
  | group b body =>
    rw [Part.after] at hq
    split at hq
    · rename_i hcode
      split at hq
      · rename_i brace hbody
        cases hq
        obtain ⟨s, hfill, hpass⟩ := checkAll_sound hs hbody
        refine ⟨b.opener :: s ++ [b.closer],
          by simp [Part.fill, hfill, bind, Except.bind, pure, Except.pure], ?_⟩
        -- a bracket begins in code, and its inside leads back to code
        obtain ⟨region, brace⟩ := p
        obtain rfl : region = .code := hcode.1
        exact hpass.group (by cases b <;> rfl) (by cases b <;> rfl) hcode.2
      · cases hq
    · cases hq
  | literal quote body =>
    rw [Part.after] at hq
    split at hq
    · rename_i hcode
      split at hq
      · rename_i q' brace hbody
        split at hq
        · rename_i hquote
          cases hq
          subst hquote
          obtain ⟨s, hfill, hpass⟩ := checkAll_sound hs hbody
          refine ⟨q' :: s ++ [q'],
            by simp [Part.fill, hfill, bind, Except.bind, pure, Except.pure], ?_⟩
          obtain ⟨region, brace⟩ := p
          obtain rfl : region = .code := hcode.1
          exact hpass.quote hcode.2
        · cases hq
      · cases hq
    · cases hq
  | each item r body =>
    -- the inside leads back to the spot, so that it may stand any number of times
    rw [Part.after] at hq
    split at hq
    · rename_i shape hr
      split at hq
      · rename_i hbody
        cases hq
        obtain ⟨xs, hv, hfit⟩ := Ref.items_of_shape? hs hr
        obtain ⟨texts, hmap, hpass⟩ :=
          mapM_of_items (f := fun x => fillAll body ((item, x) :: scope)) fun x hx =>
            checkAll_sound (.cons (hfit x hx) hs) hbody
        refine ⟨texts.flatten, ?_, hpass⟩
        simp [Part.fill, hv, itemsOf, Value.untied, hmap, bind, Except.bind, pure, Except.pure]
      · cases hq
    · cases hq
  | when test body =>
    rw [Part.after] at hq
    split at hq
    · rename_i hbody
      cases hq
      obtain ⟨b, hb⟩ := Test.holds_of_known hs hbody.1
      obtain ⟨s, hfill, hpass⟩ := checkAll_sound hs hbody.2
      cases b with
      | true => exact ⟨s, by simp [Part.fill, hb, hfill, bind, Except.bind], hpass⟩
      | false =>
        exact ⟨[], by simp [Part.fill, hb, bind, Except.bind, pure, Except.pure], .nil p⟩
    · cases hq

/-- **A template that checks can be filled** in every scope that fits, and its text passes as
    the check says. -/
theorem checkAll_sound {parts : List Part} {env : Env} {scope : Scope} {p q : Spot}
    (hs : ScopeFits env scope) (hq : checkAll env p parts = some q) :
    ∃ s, fillAll parts scope = .ok s ∧ Passes p s q := by
  cases parts with
  | nil =>
    cases hq
    exact ⟨[], rfl, .nil p⟩
  | cons part parts =>
    rw [checkAll] at hq
    obtain ⟨r, hr, hq⟩ := Option.bind_eq_some_iff.mp hq
    obtain ⟨s, hfill, hpass⟩ := Part.after_sound hs hr
    obtain ⟨t, hfill', hpass'⟩ := checkAll_sound hs hq
    refine ⟨s ++ t, ?_, hpass.append hpass'⟩
    simp [fillAll, hfill, hfill', bind, Except.bind, pure, Except.pure]

end

end ApiNodes.Template
