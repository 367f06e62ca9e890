import ApiNodes.Proofs.Name.Unique
import ApiNodes.Proofs.Path.Plain
import ApiNodes.Proofs.Typescript.TextKind
import ApiNodes.Typescript.Locals

namespace ApiNodes.Typescript

open Api (PathPart PlainPart PlainPath)
open Name (All Wordy)

/-!
# Local constants and request paths: lemmas

* `map_pathVariables` — the names and the constants of path variables;
* `wordy_ident_of_mem_pathVariables`, `ident_ne_empty` — constants are made of word characters;
* `exists_variableOf?` — a name has the first of its constants;
* `passes_requestPath` — the request path of a plain path is the body of a template literal.
-/

variable {c : Char} {path name : String} {names : List String} {found : List PathVariable}

/-! ### Constants -/

/-- Identifiers are made of word characters. -/
theorem all_identifier (name : String) :
    All (Name.isWordChar · = true) (identifier name).toList := by
  unfold identifier
  dsimp only
  split
  · exact fun c hc => List.all_eq_true.mp (show "value".toList.all Name.isWordChar by decide) c hc
  · intro c hc
    rw [String.toList_ofList] at hc
    exact (List.mem_filter.mp ((List.dropWhile_sublist _).mem hc)).2

/-- Identifiers are not empty. -/
theorem identifier_ne_empty (name : String) : identifier name ≠ "" := by
  unfold identifier
  dsimp only
  split
  · decide
  · rename_i hne
    simpa using hne

/-- The wanted names are made of word characters. -/
theorem all_wantedLocal (name : String) :
    All (Name.isWordChar · = true) (wantedLocal name).toList := by
  unfold wantedLocal
  dsimp only
  split
  · rw [String.toList_append]
    exact (all_identifier name).append fun c hc =>
      List.all_eq_true.mp (show "Param".toList.all Name.isWordChar by decide) c hc
  · exact all_identifier name

/-- The wanted names are not empty. -/
theorem wantedLocal_ne_empty (name : String) : wantedLocal name ≠ "" := by
  unfold wantedLocal
  dsimp only
  split
  · simp
  · exact identifier_ne_empty name

/-- Path variables have the names that are given, and their constants are unique. -/
theorem map_pathVariables (names : List String) :
    (pathVariables names).map (·.name) = names ∧
      (pathVariables names).map (·.ident) =
        Name.uniqueAll handlerLocals (names.map wantedLocal) := by
  have hlength : (Name.uniqueAll handlerLocals (names.map wantedLocal)).length = names.length := by
    rw [Name.length_uniqueAll, List.length_map]
  unfold pathVariables
  generalize Name.uniqueAll handlerLocals (names.map wantedLocal) = idents at hlength
  induction names generalizing idents with
  | nil =>
    rw [List.length_nil, List.length_eq_zero_iff] at hlength
    simp [hlength]
  | cons name names ih =>
    cases idents with
    | nil => simp at hlength
    | cons ident idents =>
      have ih := ih idents (by simpa using hlength)
      simp [ih]

/-- The constants of path variables are names that are wanted for them, some with a number. -/
theorem exists_wantedLocal_of_mem {v : PathVariable} (hv : v ∈ pathVariables names) :
    ∃ n ∈ names, v.ident = wantedLocal n ∨ ∃ k, v.ident = Name.numbered (wantedLocal n) k := by
  have hident : v.ident ∈ Name.uniqueAll handlerLocals (names.map wantedLocal) := by
    rw [← (map_pathVariables names).2]
    exact List.mem_map_of_mem hv
  obtain ⟨base, hbase, hunique⟩ := Name.exists_base_of_mem_uniqueAll hident
  obtain ⟨n, hn, rfl⟩ := List.mem_map.mp hbase
  exact ⟨n, hn, hunique⟩

/-- The constants of path variables are made of word characters. -/
theorem all_ident_of_mem_pathVariables {v : PathVariable} (hv : v ∈ pathVariables names) :
    All (Name.isWordChar · = true) v.ident.toList := by
  obtain ⟨n, -, hident⟩ := exists_wantedLocal_of_mem hv
  exact Name.all_unique (fun c hc => by simp [Name.isWordChar, hc]) (all_wantedLocal n) hident

/-- The constants of path variables are not empty. -/
theorem ident_ne_empty {v : PathVariable} (hv : v ∈ pathVariables names) : v.ident ≠ "" := by
  obtain ⟨n, -, hident | ⟨k, hident⟩⟩ := exists_wantedLocal_of_mem hv
  · rw [hident]
    exact wantedLocal_ne_empty n
  · rw [hident, Name.numbered]
    intro h
    simp [wantedLocal_ne_empty] at h

/-- The constants of path variables are names. -/
theorem wordy_ident_of_mem_pathVariables {v : PathVariable} (hv : v ∈ pathVariables names) :
    Wordy v.ident.toList :=
  Name.wordy_of_wordChars (all_ident_of_mem_pathVariables hv)

/-- The variable of a placeholder is one of those that are given. -/
theorem mem_of_bind_variableOf? {name? : Option (List Char)} {ident : String}
    (h : name?.bind (variableOf? found) = some ident) : ∃ v ∈ found, v.ident = ident := by
  obtain ⟨chars, -, hvariable⟩ := Option.bind_eq_some_iff.mp h
  obtain ⟨hvariable, -⟩ := Option.filter_eq_some_iff.mp hvariable
  obtain ⟨v, hv, hident⟩ := Option.map_eq_some_iff.mp hvariable
  exact ⟨v, List.mem_of_find?_eq_some hv, hident⟩

/-- A name that is given has a variable, the first one of that name. -/
theorem exists_variableOf? (hname : name ∈ names) :
    ∃ v ∈ pathVariables names, v.name = name ∧
      variableOf? (pathVariables names) name.toList = some v.ident := by
  have hgiven : name ∈ (pathVariables names).map (·.name) := by
    rw [(map_pathVariables names).1]
    exact hname
  obtain ⟨w, hw, hwname⟩ := List.mem_map.mp hgiven
  cases hfind : (pathVariables names).find? fun v => v.name.toList == name.toList with
  | none =>
    rw [List.find?_eq_none] at hfind
    exact absurd (by rw [hwname]; exact beq_self_eq_true _) (hfind w hw)
  | some v =>
    have hv := List.mem_of_find?_eq_some hfind
    have hvname : v.name.toList = name.toList := by simpa using List.find?_some hfind
    refine ⟨v, hv, String.toList_inj.mp hvname, ?_⟩
    rw [variableOf?, hfind, Option.map_some, Option.filter_some, if_pos]
    simpa using ident_ne_empty hv

/-! ### Request paths -/

/-- A name between braces in a template literal. -/
theorem passes_braced {s : List Char} (hs : Wordy s) :
    Passes ⟨.literal '\x60', false⟩ ('{' :: s ++ ['}']) ⟨.literal '\x60', false⟩ := by
  have hopen : Passes ⟨.literal '\x60', false⟩ ['{'] ⟨.literal '\x60', true⟩ :=
    passes_of_step (by decide)
  have hclose : Passes ⟨.literal '\x60', false⟩ ['}'] ⟨.literal '\x60', false⟩ :=
    passes_of_step (by decide)
  cases s with
  | nil => exact passes_of_chars (by decide)
  | cons d s =>
    have hd := hs d List.mem_cons_self
    have hrest : Passes ⟨.literal '\x60', false⟩ s ⟨.literal '\x60', false⟩ :=
      TextKind.passes (k := .word) rfl fun e he => hs e (List.mem_cons_of_mem d he)
    -- the first character of the name stands behind the brace
    have hfirst : Passes ⟨.literal '\x60', true⟩ [d] ⟨.literal '\x60', false⟩ := by
      have hbrace := Name.ne_of_isWordy hd (d := '{') (by decide)
      have hpercent := Name.ne_of_isWordy hd (d := '%') (by decide)
      have hback := Name.ne_of_isWordy hd (d := '\\') (by decide)
      have hquote := Name.ne_of_isWordy hd (d := '\x60') (by decide)
      exact passes_of_step
        (by simp [Spot.step, Region.step, opensHole, hbrace, hpercent, hback, hquote])
    exact ((hopen.append hfirst).append hrest).append hclose

/-- A part of a plain path leaves the template literal as it is. -/
theorem passes_pathPart (hfound : ∀ v ∈ found, Wordy v.ident.toList) {p : PathPart}
    (hp : PlainPart p) :
    Passes ⟨.literal '\x60', false⟩ (pathPart found p) ⟨.literal '\x60', false⟩ := by
  unfold pathPart
  split
  · rename_i ident hident
    obtain ⟨v, hv, rfl⟩ := mem_of_bind_variableOf? hident
    have hdollar : Passes ⟨.literal '\x60', false⟩ ['$'] ⟨.literal '\x60', false⟩ :=
      passes_of_step (by decide)
    exact hdollar.append (passes_braced (hfound v hv))
  · cases p with
    | plain c =>
      refine passes_of_step ?_
      rcases hp with hc | rfl
      · exact step_of_isWordy (Api.isWordy_of_isPlain hc) (.inr (.inr ⟨_, rfl, rfl⟩))
      · decide
    | hole name => exact passes_braced hp.wordy

/-- A plain path has nothing to escape, and the root in front of it. -/
theorem escapeChars_absolutePath (hp : PlainPath path) :
    escapeChars (absolutePath path).toList = path.toList := by
  have hroot : absolutePath path = path := by
    obtain ⟨first, rest, -, -, hpath⟩ := hp
    unfold absolutePath
    rw [if_pos (Text.startsWith_iff.mpr ?_)]
    rw [hpath]
    exact (show rootPrefix.toList <+: Api.root.toList from ⟨['/'], by decide⟩).trans
      (List.prefix_append _ _)
  rw [hroot]
  refine escapeChars_eq_self fun c hc => ?_
  rcases Api.mem_plainPath hp hc with hc | rfl | rfl | rfl
  · exact isSpecial_of_isWordy (Api.isWordy_of_isPlain hc)
  all_goals decide

/-- **The request path of a plain path** is the body of a template literal. -/
theorem passes_requestPath (hp : PlainPath path) (hfound : ∀ v ∈ found, Wordy v.ident.toList) :
    Passes ⟨.literal '\x60', false⟩ (requestPath path found).toList ⟨.literal '\x60', false⟩ := by
  rw [requestPath, String.toList_ofList, escapeChars_absolutePath hp, List.flatMap_def]
  refine Passes.flatten fun piece hpiece => ?_
  obtain ⟨p, hpart, rfl⟩ := List.mem_map.mp hpiece
  exact passes_pathPart hfound (Api.plainPart_of_plainPath hp hpart)

end ApiNodes.Typescript
