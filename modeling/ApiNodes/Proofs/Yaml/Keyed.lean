import ApiNodes.Document.Yaml.Reader
import ApiNodes.Proofs.Extraction.Keyed
import ApiNodes.Proofs.Json.Written

namespace ApiNodes.Yaml

open Api (Keyed isLeaf keyTexts)
open Json (exists_of_bind)

/-!
# Keys of YAML documents

The entries of a mapping are written to their keys one after the other, whether they are its own or
merged, and a key is no collection.  So no text is a key twice in a document that is read, however
its nodes are tied together.

* `Makes` — what a step of making returns, where it keeps the keys of mappings different;
* `madeKeyed_made` — what the nodes of a document stand for;
* `Ties`, `ties_tied` — and the values that are put together from it;
* `keyed_read` — documents.
-/

variable {α β : Type} {g : Graph} {id : NodeId} {v : Value} {tag text : String}

/-! ### Scalars -/

/-- An integer holds no other values. -/
theorem isLeaf_of_readInteger {s : List Char} (h : readInteger s = .ok v) : isLeaf v = true := by
  unfold readInteger at h
  dsimp only at h
  split at h
  · cases h
  · split at h
    · cases h
    · cases h
      rfl
    · split at h <;> cases h
      rfl
    · split at h <;> cases h
      rfl
    · split at h <;> cases h
      rfl
    · -- digits in base ten, or in base sixty with colons
      split at h <;> split at h <;> cases h <;> rfl

/-- Nor does a floating-point number. -/
theorem isLeaf_of_readFloat {s : List Char} (h : readFloat s = .ok v) : isLeaf v = true := by
  unfold readFloat at h
  dsimp only at h
  split at h
  · cases h
  split at h
  · cases h
    rfl
  split at h
  · cases h
    rfl
  split at h
  · obtain ⟨_, -, h⟩ := exists_of_bind h
    obtain ⟨_, -, h⟩ := exists_of_bind h
    cases h
    rfl
  · cases hnumber : Numeral.float? (Numeral.signed (floatText s)).2 with
    | none =>
      rw [hnumber] at h
      cases h
    | some x =>
      rw [hnumber] at h
      cases h
      rfl

/-- A row of bytes is a value of its own. -/
theorem isLeaf_of_readBytes {s : List Char} (h : readBytes s = .ok v) : isLeaf v = true := by
  unfold readBytes at h
  split at h <;> cases h
  rfl

/-- A moment is a date or a timestamp. -/
theorem isLeaf_of_readMoment {s : List Char} (h : readMoment s = .ok v) : isLeaf v = true := by
  unfold readMoment at h
  split at h
  · cases h
  · split at h
    · rename_i m _ _ hm
      cases h
      unfold Moment.value? at hm
      dsimp only at hm
      split at hm <;> split at hm <;> cases hm <;> rfl
    · cases h

/-- **The value of a scalar** holds no other values, whatever tag it has. -/
theorem isLeaf_of_scalarReader? {read : String → Except Fault Value}
    (hread : scalarReader? tag = some read) (h : read text = .ok v) : isLeaf v = true := by
  unfold scalarReader? at hread
  split_ifs at hread <;> cases hread
  · cases h
    rfl
  · unfold readTruth at h
    split at h <;> cases h
    rfl
  · exact isLeaf_of_readInteger h
  · exact isLeaf_of_readFloat h
  · exact isLeaf_of_readBytes h
  · exact isLeaf_of_readMoment h
  · cases h
    rfl

/-- Nor does that of a node. -/
theorem isLeaf_of_scalarOf (h : g.scalarOf id = .ok v) : isLeaf v = true := by
  unfold Graph.scalarOf at h
  obtain ⟨read, hread, h⟩ := exists_of_bind h
  obtain ⟨text, -, h⟩ := exists_of_bind h
  have hreader : scalarReader? (g.tag id) = some read := by
    cases hfound : scalarReader? (g.tag id) with
    | none =>
      rw [hfound] at hread
      cases hread
    | some r =>
      rw [hfound] at hread
      cases hread
      rfl
  split at h
  · exact isLeaf_of_scalarReader? hreader h
  · split at h
    · cases h
    · exact isLeaf_of_scalarReader? hreader h

/-! ### Keys -/

/-- The texts among the keys of entries, in order. -/
def keyTextsOf (written : List (Make.Key × NodeId)) : List String :=
  written.filterMap fun entry => entry.1.value.str?

/-- Equal texts are one key. -/
theorem same_of_str? {a b : Make.Key} {t : String} (ha : a.value.str? = some t)
    (hb : b.value.str? = some t) : a.same b = true := by
  obtain ⟨v, _⟩ := a
  obtain ⟨w, _⟩ := b
  cases v with
  | str s =>
    cases w with
    | str s' =>
      cases ha
      cases hb
      simp [Make.Key.same, Value.sameKey]
    | _ => cases hb
  | _ => cases ha

/-- What is written to a key adds no text but that of the key. -/
theorem mem_keyTextsOf_putKey {k : Make.Key} {x : NodeId} {t : String}
    {written : List (Make.Key × NodeId)} (h : t ∈ keyTextsOf (Make.putKey k x written)) :
    t ∈ keyTextsOf written ∨ k.value.str? = some t := by
  induction written with
  | nil =>
    obtain ⟨entry, hentry, ht⟩ := List.mem_filterMap.mp h
    obtain rfl := List.mem_singleton.mp hentry
    exact .inr ht
  | cons entry written ih =>
    obtain ⟨k', w⟩ := entry
    rw [Make.putKey] at h
    split at h
    · exact .inl h
    · rw [keyTextsOf, List.filterMap_cons] at h ⊢
      cases hk' : k'.value.str? with
      | none =>
        rw [hk'] at h
        exact ih h
      | some t' =>
        rw [hk'] at h
        rcases List.mem_cons.mp h with rfl | h
        · exact .inl List.mem_cons_self
        · exact (ih h).imp_left (List.mem_cons_of_mem t')

/-- **No text is a key twice** after one more key is written. -/
theorem nodup_keyTextsOf_putKey (k : Make.Key) (x : NodeId) {written : List (Make.Key × NodeId)}
    (h : (keyTextsOf written).Nodup) : (keyTextsOf (Make.putKey k x written)).Nodup := by
  induction written with
  | nil =>
    rw [Make.putKey, keyTextsOf, List.filterMap_cons]
    cases k.value.str? <;> simp
  | cons entry written ih =>
    obtain ⟨k', w⟩ := entry
    rw [Make.putKey]
    split
    · exact h
    · rename_i hdifferent
      rw [keyTextsOf, List.filterMap_cons] at h ⊢
      cases hk' : k'.value.str? with
      | none =>
        rw [hk'] at h
        exact ih h
      | some t =>
        rw [hk'] at h
        obtain ⟨hnew, hrest⟩ := List.nodup_cons.mp h
        refine List.nodup_cons.mpr ⟨fun hmem => ?_, ih hrest⟩
        exact (mem_keyTextsOf_putKey hmem).elim hnew fun hk => hdifferent (same_of_str? hk' hk)

/-! ### Steps of making -/

/-- No text is a key twice in what a node stands for, and what a scalar stands for holds no other
    values. -/
def Made.Keyed : Made → Prop
  | .leaf v => isLeaf v = true
  | .map es => ((es.map Prod.fst).filterMap Value.str?).Nodup
  | _ => True

/-- So has all that is made. -/
def MadeKeyed (made : Array (Option Made)) : Prop :=
  ∀ (id : NodeId) (m : Made), made[id]? = some (some m) → m.Keyed

/-- A step of making keeps the keys different, and what it returns is as it should be. -/
def Makes (Q : α → Prop) (x : Make α) : Prop :=
  ∀ s a s', MadeKeyed s.made → x s = .ok (a, s') → Q a ∧ MadeKeyed s'.made

variable {P : α → Prop} {Q : β → Prop} {x : Make α}

/-- Nothing is done. -/
theorem makes_pure {a : α} (h : P a) : Makes P (pure a) := by
  intro s b s' hs hrun
  cases hrun
  exact ⟨h, hs⟩

/-- Two steps in a row. -/
theorem Makes.bind {f : α → Make β} (hx : Makes P x) (hf : ∀ a, P a → Makes Q (f a)) :
    Makes Q (x >>= f) := by
  intro s b s' hs hrun
  obtain ⟨⟨a, t⟩, hstep, hrun⟩ := exists_of_bind (m := x s) hrun
  obtain ⟨ha, ht⟩ := hx s a t hs hstep
  exact hf a ha t b s' ht hrun

/-- A fault. -/
theorem makes_throw (fault : Fault) : Makes P (throw fault : Make α) := by
  intro s a s' hs hrun
  cases hrun

/-- A result that does not depend on what is made. -/
theorem makes_lift {result : Except Fault α} (h : ∀ a, result = .ok a → P a) :
    Makes P (liftM result : Make α) := by
  intro s a s' hs hrun
  cases result with
  | error fault => cases hrun
  | ok b =>
    cases hrun
    exact ⟨h a rfl, hs⟩

/-- The state is looked at. -/
theorem makes_get : Makes (fun _ => True) (get : Make Making) := by
  intro s a s' hs hrun
  cases hrun
  exact ⟨trivial, hs⟩

/-- The state is changed. -/
theorem makes_modify {f : Making → Making} (h : ∀ s, MadeKeyed s.made → MadeKeyed (f s).made) :
    Makes (fun _ => True) (modify f : Make Unit) := by
  intro s a s' hs hrun
  cases hrun
  exact ⟨trivial, h s hs⟩

/-- A step for each of a row. -/
theorem makes_forM {γ : Type} {f : γ → Make Unit} (hf : ∀ c, Makes (fun _ => True) (f c))
    (cs : List γ) : Makes (fun _ => True) (cs.forM f) := by
  induction cs with
  | nil => exact makes_pure trivial
  | cons c cs ih => exact (hf c).bind fun _ _ => ih

/-- The results of a step for each of a row. -/
theorem makes_mapM {γ : Type} {f : γ → Make β} (hf : ∀ c, Makes (fun _ => True) (f c))
    (cs : List γ) : Makes (fun _ => True) (cs.mapM f) := by
  induction cs with
  | nil => exact makes_pure trivial
  | cons c cs ih =>
    rw [List.mapM_cons]
    exact (hf c).bind fun _ _ => ih.bind fun _ _ => makes_pure trivial

/-- A result that goes through a step for each of a row. -/
theorem makes_foldlM {γ : Type} {f : α → γ → Make α} (hf : ∀ a c, P a → Makes P (f a c))
    (cs : List γ) : ∀ {a : α}, P a → Makes P (cs.foldlM f a) := by
  induction cs with
  | nil => exact fun ha => makes_pure ha
  | cons c cs ih =>
    intro a ha
    rw [List.foldlM_cons]
    exact (hf a c ha).bind fun b hb => ih hb

/-! ### Making -/

/-- A node is noted. -/
theorem makes_note {m : Made} (id : NodeId) (hm : m.Keyed) :
    Makes (fun _ => True) (Make.note id m) := by
  refine makes_modify fun s hs other m' hother => ?_
  rw [Array.getElem?_setIfInBounds] at hother
  split at hother
  · split at hother <;> cases hother
    exact hm
  · exact hs other m' hother

/-- A collection that is not filled yet has no keys. -/
theorem keyed_empty (kind : Kind) : kind.empty.Keyed := by
  cases kind with
  | map => exact List.nodup_nil
  | _ => trivial

/-- A way leads to a node. -/
theorem makes_visit (id : NodeId) : Makes (fun _ => True) (Make.visit id) := by
  have hread : Makes (fun _ => True)
      (modifyGet fun s : Making => ((s.made[id]?.join).isSome, s) : Make Bool) := by
    intro s a s' hs hrun
    cases hrun
    exact ⟨trivial, hs⟩
  unfold Make.visit
  refine hread.bind fun isMade _ => ?_
  split
  · exact makes_pure trivial
  · refine makes_get.bind fun s _ => ?_
    split
    · exact (makes_note id (keyed_empty _)).bind fun _ _ => makes_modify fun s hs => hs
    · refine makes_get.bind fun s _ => ?_
      exact (makes_lift fun v hv => isLeaf_of_scalarOf hv).bind fun v hv => makes_note id hv

/-- The key of a node is looked at. -/
theorem makes_key (id : NodeId) : Makes (fun _ => True) (Make.key id) := by
  unfold Make.key
  refine makes_get.bind fun s _ => ?_
  split
  · exact makes_pure trivial
  · exact makes_throw _

/-- **The entries of a mapping** have different texts as keys. -/
theorem makes_entries (id : NodeId) :
    Makes (fun es => ((es.map Prod.fst).filterMap Value.str?).Nodup) (Make.entries id) := by
  unfold Make.entries
  refine makes_get.bind fun s _ => (makes_lift (P := fun _ => True) fun _ _ => trivial).bind
    fun g _ => (makes_modify ?_).bind fun _ _ => ?_
  · exact fun s hs => hs
  split
  · have hnone : (keyTextsOf []).Nodup := List.nodup_nil
    refine (makes_foldlM (P := fun written => (keyTextsOf written).Nodup)
      (fun written entry hwritten => ?_) _ hnone).bind fun written hnodup => makes_pure ?_
    · -- one more key is written
      exact (makes_visit _).bind fun _ _ => (makes_key _).bind fun key _ =>
        (makes_visit _).bind fun _ _ => makes_pure (nodup_keyTextsOf_putKey key _ hwritten)
    · rw [List.filterMap_map, List.filterMap_map]
      exact hnodup
  · exact makes_throw _

/-- The pair of a mapping with one entry. -/
theorem makes_pair (id : NodeId) : Makes (fun _ => True) (Make.pair id) := by
  unfold Make.pair
  refine makes_get.bind fun s _ => ?_
  split
  · exact (makes_visit _).bind fun _ _ => (makes_visit _).bind fun _ _ => makes_pure trivial
  · exact makes_throw _

/-- The items of a sequence. -/
theorem makes_items (id : NodeId) : Makes (fun _ => True) (Make.items id) := by
  unfold Make.items
  refine makes_get.bind fun s _ => ?_
  split
  · exact makes_pure trivial
  · exact makes_throw _

/-- What a collection is filled with has different keys. -/
theorem makes_fillAs (id : NodeId) (kind : Kind) :
    Makes (fun m => m.Keyed) (Make.fillAs id kind) := by
  cases kind with
  | list =>
    exact (makes_items id).bind fun xs _ => (makes_forM makes_visit xs).bind fun _ _ =>
      makes_pure trivial
  | map => exact (makes_entries id).bind fun es hes => makes_pure hes
  | set => exact (makes_entries id).bind fun es _ => makes_pure trivial
  | pairs =>
    exact (makes_items id).bind fun xs _ => (makes_mapM makes_pair xs).bind fun _ _ =>
      makes_pure trivial

/-- A collection is filled. -/
theorem makes_fill (id : NodeId) : Makes (fun _ => True) (Make.fill id) := by
  unfold Make.fill
  refine makes_get.bind fun s _ => ?_
  split
  · exact (makes_fillAs id _).bind fun m hm => makes_note id hm
  · exact makes_pure trivial

/-- Collections are filled, round after round. -/
theorem makes_rounds (fuel : Nat) : Makes (fun _ => True) (Make.rounds fuel) := by
  induction fuel with
  | zero => exact makes_pure trivial
  | succ fuel ih =>
    unfold Make.rounds
    refine makes_get.bind fun s _ => ?_
    dsimp only
    split
    · exact makes_pure trivial
    · refine (makes_modify ?_).bind fun _ _ => (makes_forM makes_fill _).bind fun _ _ => ih
      exact fun s hs => hs

/-- **What the nodes of a document stand for** has different keys. -/
theorem madeKeyed_made {root : NodeId} {found : Array (Option Made)}
    (h : made g root = .ok found) : MadeKeyed found := by
  unfold made at h
  obtain ⟨⟨_, s⟩, hrun, h⟩ := exists_of_bind h
  cases h
  have hmakes : Makes (fun _ => True) (do Make.visit root; Make.rounds (g.nodes.size + 1)) :=
    (makes_visit root).bind fun _ _ => makes_rounds _
  refine (hmakes _ _ _ (fun id m hm => ?_) hrun).2
  rw [Array.getElem?_replicate] at hm
  split at hm <;> cases hm

/-! ### Knots -/

/-- The values that are put together have different keys. -/
def ValuesKeyed (values : Values) : Prop :=
  ∀ (id : NodeId) (v : Value), values[id]? = some (some v) → Keyed v

/-- A step of putting together keeps to such values, and what it returns is as it should be. -/
def Ties (Q : α → Prop) (x : StateM Values α) : Prop :=
  ∀ values, ValuesKeyed values → Q (x values).1 ∧ ValuesKeyed (x values).2

variable {y : StateM Values α}

/-- Nothing is put together. -/
theorem ties_pure {a : α} (h : P a) : Ties P (pure a) := fun _ hvalues => ⟨h, hvalues⟩

/-- Two steps in a row. -/
theorem Ties.bind {f : α → StateM Values β} (hy : Ties P y) (hf : ∀ a, P a → Ties Q (f a)) :
    Ties Q (y >>= f) := fun values hvalues =>
  hf (y values).1 (hy values hvalues).1 (y values).2 (hy values hvalues).2

/-- The results of a step for each of a row. -/
theorem ties_mapM {γ : Type} {f : γ → StateM Values β} (hf : ∀ c, Ties Q (f c)) (cs : List γ) :
    Ties (fun bs => ∀ b ∈ bs, Q b) (cs.mapM f) := by
  induction cs with
  | nil => exact ties_pure fun b hb => by cases hb
  | cons c cs ih =>
    rw [List.mapM_cons]
    exact (hf c).bind fun b hb => ih.bind fun bs hbs =>
      ties_pure (List.forall_mem_cons.mpr ⟨hb, hbs⟩)

/-- A collection is finished: it is kept, or is a knot if it leads back to itself. -/
theorem ties_finish (h : Keyed v) (id : NodeId) (back : List NodeId) :
    Ties (fun result => Keyed result.1) (do
      if back.isEmpty then
        modify (·.setIfInBounds id (some v))
        return (v, [])
      else return (.knot id v, back.eraseDups.filter (· != id)) :
        StateM Values (Value × List NodeId)) := by
  split
  · intro values hvalues
    refine ⟨h, fun other w hother => ?_⟩
    have hset : (values.setIfInBounds id (some v))[other]? = some (some w) := hother
    rw [Array.getElem?_setIfInBounds] at hset
    split at hset
    · split at hset <;> cases hset
      exact h
    · exact hvalues other w hset
  · exact ties_pure (.knot id h)

/-- The keys that values are put to are among the keys. -/
theorem keyTexts_zip_sublist (keys values : List Value) :
    (keyTexts (keys.zip values)).Sublist (keys.filterMap Value.str?) := by
  have hkeys : ((keys.zip values).map Prod.fst).Sublist keys := by
    induction keys generalizing values with
    | nil => exact List.nil_sublist _
    | cons k keys ih =>
      cases values with
      | nil => exact List.nil_sublist _
      | cons v values => exact (ih values).cons_cons k
  have htexts : keyTexts (keys.zip values) =
      ((keys.zip values).map Prod.fst).filterMap Value.str? := by
    rw [List.filterMap_map]
    rfl
  rw [htexts]
  exact hkeys.filterMap _

/-- **The value of a node** has different keys. -/
theorem ties_tied {found : Array (Option Made)} (hmade : MadeKeyed found) (fuel : Nat) :
    ∀ (around : List NodeId) (id : NodeId),
      Ties (fun result => Keyed result.1) (tied found fuel around id) := by
  induction fuel with
  | zero => exact fun around id => ties_pure (.leaf rfl)
  | succ fuel ih =>
    intro around id
    have hknown : Ties (fun known : Option Value => ∀ v ∈ known, Keyed v)
        (modifyGet fun values : Values => (values[id]?.join, values)) := by
      refine fun values hvalues => ⟨fun v hv => ?_, hvalues⟩
      exact hvalues id v (Option.join_eq_some_iff.mp hv)
    unfold tied
    dsimp only
    split
    · exact ties_pure (.leaf rfl)
    · refine hknown.bind fun known hkeyed => ?_
      split
      · exact ties_pure (hkeyed _ rfl)
      · exact ties_pure (.leaf rfl)
      · -- a scalar
        rename_i hleaf
        exact ties_pure (.leaf (hmade id _ (Option.join_eq_some_iff.mp hleaf)))
      · exact ties_pure (.leaf rfl)
      · -- a sequence
        refine (ties_mapM (ih (id :: around)) _).bind fun vs hvs => ties_finish (.list ?_) id _
        exact List.forall_mem_map.mpr hvs
      · -- a mapping: its keys are there already, and only its values are put together
        rename_i es hes
        have hkeys := hmade id _ (Option.join_eq_some_iff.mp hes)
        refine (ties_mapM (fun e => ih (id :: around) e.2) es).bind fun vs hvs =>
          ties_finish (.map ?_ ?_) id _
        · exact List.Nodup.sublist (keyTexts_zip_sublist _ _) hkeys
        · intro e he
          exact List.forall_mem_map.mpr hvs e.2 (List.of_mem_zip he).2
      · -- a list of pairs
        refine (ties_mapM (Q := fun result => Keyed result.1) (fun e => ?_) _).bind fun vs hvs =>
          ties_finish (.list ?_) id _
        · exact (ih (id :: around) e.1).bind fun a ha => (ih (id :: around) e.2).bind fun b hb =>
            ties_pure (.pair ha hb)
        · exact List.forall_mem_map.mpr hvs

/-- What a document stands for has different keys. -/
theorem keyed_valueOf {found : Array (Option Made)} (hmade : MadeKeyed found) (root : NodeId) :
    Keyed (valueOf found root) := by
  refine (ties_tied hmade _ [] root _ fun id v hv => ?_).1
  rw [Array.getElem?_replicate] at hv
  split at hv <;> cases hv

/-- **In a document that is read** no text is a key twice. -/
theorem keyed_read (h : read text = .ok v) : Keyed v := by
  unfold read at h
  obtain ⟨⟨root, b⟩, -, h⟩ := exists_of_bind h
  dsimp only at h
  split at h
  · cases h
    exact .leaf rfl
  · obtain ⟨found, hfound, h⟩ := exists_of_bind h
    cases h
    exact keyed_valueOf (madeKeyed_made hfound) _

end ApiNodes.Yaml
