import Voisu.Hyprland.Imports

/-!
# The two walks over a configuration

* `luaNet`                      the files and their imports;
* `forEachLuaSource_traverse`   the first walk is a walk over them;
* `forEachLuaSource_visits`     **it ends, and visits every file that is reached, once**;
* `Exec`                        a file run in order: its options, and the files that it loads;
* `collectReachableKbOptions_iff`   **the second walk ends, and returns what such a run gives**.
-/

namespace Voisu.Hyprland
open Lib

section
variable (files : BindingFiles) (root : NormalPath) (rootSource : Text)

/-- the text of a file; the root comes with its own -/
def sourceOf (p : NormalPath) : Text :=
  if p = root then rootSource
  else
    match files.readToString p.text with
    | .ok (some source) => source
    | _ => []

/-- the file that an import leads to, if there is one -/
def importedBy (p : NormalPath) (found : LuaImport) : Except String (Option NormalPath) :=
  match resolveLuaImport files p found with
  | .error e => .error e
  | .ok none => .ok none
  | .ok (some imported) => (readImported files imported).map fun _ => some imported

def luaNet : Net NormalPath LuaImport String where
  refs p := parseLuaImports (sourceOf files root rootSource p)
  follow := importedBy files

variable {files root rootSource}

theorem readImported_eq {p : NormalPath} {source : Text} (h : readImported files p = .ok source) :
    files.readToString p.text = .ok (some source) := by
  rw [readImported] at h
  split at h
  · cases h
  · cases h
  next hread => rw [hread, Except.ok.inj h]

theorem importedBy_some {p q : NormalPath} {found : LuaImport}
    (h : importedBy files p found = .ok (some q)) :
    resolveLuaImport files p found = .ok (some q) ∧ ∃ source, readImported files q = .ok source := by
  rw [importedBy] at h
  split at h
  · cases h
  · cases h
  next imported hresolve =>
    cases hread : readImported files imported with
    | error e =>
      rw [hread] at h
      cases h
    | ok source =>
      rw [hread] at h
      obtain rfl := Option.some.inj (Except.ok.inj h)
      exact ⟨hresolve, source, hread⟩

theorem edge_readable {p q : NormalPath} (h : (luaNet files root rootSource).Edge p q) :
    q ∈ files.readable := by
  obtain ⟨_, -, found, -, hfollow⟩ := h
  obtain ⟨-, source, hread⟩ := importedBy_some hfollow
  exact files.finite q source (readImported_eq hread)

/-! ## the first walk -/

variable {σ : Type} {visit : NormalPath → Text → σ → Except String σ} {fuel : Nat} {p : NormalPath}
  {st : Visits σ}

theorem eachImport_each {call : Text → Text → Visits σ → Except (Halt String) (Visits σ)}
    {call' : NormalPath → Visits σ → Except (Halt String) (Visits σ)}
    (hcall : ∀ q source st, readImported files q = .ok source → root ∈ st.1 →
      call q.text source st = call' q st)
    (hgrows : ∀ q st st', call' q st = .ok st' → st.1 ⊆ st'.1) (imports : List LuaImport)
    (hroot : root ∈ st.1) :
    eachImport files call p imports st =
      (luaNet files root rootSource).each call' p imports st := by
  induction imports generalizing st with
  | nil => rfl
  | cons found imports ih =>
    rw [eachImport, Net.each]
    simp only [luaNet, importedBy]
    cases resolveLuaImport files p found with
    | error e => rfl
    | ok next =>
      cases next with
      | none => exact ih hroot
      | some q =>
        dsimp only
        cases hread : readImported files q with
        | error e => rfl
        | ok source =>
          simp only [hcall q source st hread hroot, Except.map]
          cases hstep : call' q st with
          | error stop => rfl
          | ok st₁ => exact ih (hgrows q st st₁ hstep hroot)

/-- **the walk over the files is a walk over their imports** -/
theorem forEachLuaSource_traverse (source : Text)
    (hsource : p ∈ st.1 ∨ source = sourceOf files root rootSource p)
    (hroot : p = root ∨ root ∈ st.1) :
    forEachLuaSource files visit fuel p.text source st =
      (luaNet files root rootSource).traverse
        (fun q s => visit q (sourceOf files root rootSource q) s) fuel p st := by
  induction fuel generalizing p source st with
  | zero => rw [forEachLuaSource, Net.traverse, normalizePath_text]
  | succ fuel ih =>
    rw [forEachLuaSource, Net.traverse, normalizePath_text]
    split
    · rfl
    next hseen =>
      obtain rfl := hsource.resolve_left hseen
      cases visit p (sourceOf files root rootSource p) st.2 with
      | error e => rfl
      | ok s =>
        dsimp only [luaNet]
        cases parseLuaImports (sourceOf files root rootSource p) with
        | error e => rfl
        | ok imports =>
          have hroot' : root ∈ p :: st.1 := by
            rcases hroot with rfl | hroot
            · exact List.mem_cons_self
            · exact List.mem_cons_of_mem _ hroot
          refine eachImport_each (fun q source st hread hroot => ih source ?_ (.inr hroot))
            (fun q st st' h => ?_) imports hroot'
          · by_cases hq : q = root
            · exact .inl (hq ▸ hroot)
            · refine .inr ?_
              rw [sourceOf, if_neg hq, readImported_eq hread]
          · obtain ⟨order, hleg, -⟩ := Net.traverse_ok h
            exact fun x hx => hleg.subset hx

/-- the files that are reached from the root -/
abbrev Reached (files : BindingFiles) (root : NormalPath) (rootSource : Text) (p : NormalPath) :
    Prop := (luaNet files root rootSource).Reach root p

/-- what is promised of the first walk -/
structure Visited (files : BindingFiles) (root : NormalPath) (rootSource : Text)
    (visit : NormalPath → Text → σ → Except String σ) (s : σ)
    (out : Except (Halt String) (Visits σ)) : Prop where
  ends : out ≠ .error .outOfFuel
  ok : ∀ seen s', out = .ok (seen, s') → ∃ order : List NormalPath, order.Nodup ∧
    (∀ p, p ∈ order ↔ Reached files root rootSource p) ∧
    order.foldlM (fun s p => visit p (sourceOf files root rootSource p) s) s = .ok s'
  failed : ∀ e, out = .error (.failed e) → ∃ p, Reached files root rootSource p ∧
    (¬(luaNet files root rootSource).Sound p ∨
      ∃ s, visit p (sourceOf files root rootSource p) s = .error e)

/-- where no import fails and no visit does, the walk succeeds -/
theorem Visited.succeeds {s : σ} {out : Except (Halt String) (Visits σ)}
    (h : Visited files root rootSource visit s out)
    (hsound : ∀ p, Reached files root rootSource p → (luaNet files root rootSource).Sound p)
    (hvisit : ∀ p source s e, visit p source s ≠ .error e) : ∃ done, out = .ok done := by
  cases out with
  | ok done => exact ⟨done, rfl⟩
  | error stop =>
    cases stop with
    | outOfFuel => exact absurd rfl h.ends
    | failed e =>
      obtain ⟨p, hp, hbad | ⟨s, hbad⟩⟩ := h.failed e rfl
      · exact absurd (hsound p hp) hbad
      · exact absurd hbad (hvisit _ _ _ _)

theorem forEachLuaSource_normal (path source : Text) :
    forEachLuaSource files visit fuel path source st =
      forEachLuaSource files visit fuel (normalizePath path).text source st := by
  cases fuel with
  | zero => rw [forEachLuaSource, forEachLuaSource, normalizePath_text]
  | succ fuel => rw [forEachLuaSource, forEachLuaSource, normalizePath_text]

/-- **the walk ends, and visits every file that is reached, once** -/
theorem forEachLuaSource_visits (files : BindingFiles)
    (visit : NormalPath → Text → σ → Except String σ) (path source : Text) (s : σ) (fuel : Nat)
    (hfuel : files.readable.length < fuel) :
    Visited files (normalizePath path) source visit s
      (forEachLuaSource files visit fuel path source ([], s)) := by
  have hself : source = sourceOf files (normalizePath path) source (normalizePath path) :=
    (if_pos rfl).symm
  rw [forEachLuaSource_normal, forEachLuaSource_traverse source (.inr hself) (.inl rfl)]
  refine ⟨?_, fun seen s' hout => ?_, fun e hout => Net.traverse_failed hout⟩
  · refine Net.traverse_fuel (fun m c => edge_readable) (.inr ?_)
    exact Nat.lt_of_le_of_lt (List.length_filter_le _ _) hfuel
  · obtain ⟨order, hleg, hmem, hreach⟩ := Net.traverse_ok hout
    exact ⟨order, hleg.nodup, fun p => ⟨hreach p, fun h => hleg.complete hmem h⟩, hleg.state⟩

/-! ## files as programs -/

inductive Statement where
  | option (value : Text)
  | load (found : LuaImport)
deriving DecidableEq, Repr

/-- `skip` tokens of the last statement are still to be passed -/
def statementsFrom : Nat → List LuaToken → Except String (List Statement)
  | _, [] => .ok []
  | skip + 1, _ :: rest => statementsFrom skip rest
  | 0, token :: rest =>
    match optionAt (token :: rest) with
    | some value => (statementsFrom 2 rest).map (.option value :: ·)
    | none =>
      match parseLuaImportAt (token :: rest) with
      | .error e => .error e
      | .ok none => statementsFrom 0 rest
      | .ok (some (found, consumed)) =>
        (statementsFrom (consumed - 1) rest).map (.load found :: ·)

/-- what a file does, in order -/
def program (source : Text) : Except String (List Statement) :=
  match lexLua source with
  | .error e => .error e
  | .ok tokens => statementsFrom 0 tokens

/-- the statements of a file are run in order: `running` are the files that have not ended, `required`
those that were required before and after, and the options come as they are set -/
inductive Exec (files : BindingFiles) : List NormalPath → NormalPath → List Statement →
    List NormalPath → List NormalPath → List Text → Prop
  | nil {running p required} : Exec files running p [] required required []
  | option {running p rest required required' output} {value : Text}
      (h : Exec files running p rest required required' output) :
      Exec files running p (.option value :: rest) required required' (value :: output)
  /-- an import that names no file is passed over -/
  | missing {running p rest required required' output} {found : LuaImport}
      (hresolve : resolveLuaImport files p found = .ok none)
      (h : Exec files running p rest required required' output) :
      Exec files running p (.load found :: rest) required required' output
  /-- a file is required once -/
  | again {running p rest required required' output} {found : LuaImport} {q : NormalPath}
      (hresolve : resolveLuaImport files p found = .ok (some q))
      (honce : found.loader = .require ∧ q ∈ required)
      (h : Exec files running p rest required required' output) :
      Exec files running p (.load found :: rest) required required' output
  /-- a file that is running is not run again -/
  | active {running p rest required required' output} {found : LuaImport} {q : NormalPath}
      {source : Text} (hresolve : resolveLuaImport files p found = .ok (some q))
      (honce : ¬(found.loader = .require ∧ q ∈ required))
      (hread : readImported files q = .ok source) (hrunning : q ∈ running)
      (h : Exec files running p rest (note found q required) required' output) :
      Exec files running p (.load found :: rest) required required' output
  /-- every other file is run, from its first statement to its last -/
  | load {running p rest required required₁ required' statements output output'}
      {found : LuaImport} {q : NormalPath} {source : Text}
      (hresolve : resolveLuaImport files p found = .ok (some q))
      (honce : ¬(found.loader = .require ∧ q ∈ required))
      (hread : readImported files q = .ok source) (hrunning : q ∉ running)
      (hprogram : program source = .ok statements)
      (hrun : Exec files (q :: running) q statements (note found q required) required₁ output)
      (h : Exec files running p rest required₁ required' output') :
      Exec files running p (.load found :: rest) required required' (output ++ output')

/-! ## the second walk -/

variable {active : List NormalPath} {s s' : Collected} {skip : Nat} {tokens : List LuaToken}
  {call : Text → Text → Collected → Except (Halt String) Collected}

def runStatement (files : BindingFiles)
    (call : Text → Text → Collected → Except (Halt String) Collected) (p : NormalPath)
    (s : Collected) : Statement → Except (Halt String) Collected
  | .option value => .ok { s with options := s.options ++ [value] }
  | .load found =>
    match resolveLuaImport files p found with
    | .error e => .error (.failed e)
    | .ok none => .ok s
    | .ok (some q) =>
      if found.loader = .require ∧ q ∈ s.required then .ok s
      else
        match readImported files q with
        | .error e => .error (.failed e)
        | .ok source => call q.text source { s with required := note found q s.required }

/-- the tokens of a file are run as its statements -/
theorem runTokens_statements {statements : List Statement}
    (h : statementsFrom skip tokens = .ok statements) :
    runTokens files call p skip tokens s = statements.foldlM (runStatement files call p) s := by
  induction tokens generalizing skip statements s with
  | nil =>
    rw [statementsFrom] at h
    rw [runTokens, ← Except.ok.inj h]
    rfl
  | cons token rest ih =>
    cases skip with
    | succ skip =>
      rw [statementsFrom] at h
      rw [runTokens]
      exact ih h
    | zero =>
      rw [statementsFrom] at h
      rw [runTokens]
      cases hoption : optionAt (token :: rest) with
      | some value =>
        simp only [hoption] at h
        cases hlist : statementsFrom 2 rest with
        | error e =>
          rw [hlist] at h
          cases h
        | ok list =>
          rw [hlist] at h
          rw [← Except.ok.inj h]
          exact ih hlist
      | none =>
        simp only [hoption] at h
        dsimp only
        cases himport : parseLuaImportAt (token :: rest) with
        | error e =>
          rw [himport] at h
          cases h
        | ok import? =>
          rw [himport] at h
          cases import? with
          | none => exact ih h
          | some import' =>
            obtain ⟨found, consumed⟩ := import'
            dsimp only at h ⊢
            cases hlist : statementsFrom (consumed - 1) rest with
            | error e =>
              rw [hlist] at h
              cases h
            | ok list =>
              rw [hlist] at h
              rw [← Except.ok.inj h, List.foldlM_cons, runStatement]
              cases resolveLuaImport files p found with
              | error e => rfl
              | ok next =>
                cases next with
                | none => exact ih hlist
                | some q =>
                  dsimp only
                  split
                  · exact ih hlist
                  · cases readImported files q with
                    | error e => rfl
                    | ok source =>
                      dsimp only
                      cases call q.text source { s with required := note found q s.required } with
                      | error stop => rfl
                      | ok s₁ => exact ih hlist

/-- a file that cannot be read as statements is not run to its end -/
theorem runTokens_unreadable {e : String} (h : statementsFrom skip tokens = .error e) :
    runTokens files call p skip tokens s ≠ .ok s' := by
  induction tokens generalizing skip s with
  | nil => cases skip <;> cases h
  | cons token rest ih =>
    cases skip with
    | succ skip =>
      rw [statementsFrom] at h
      rw [runTokens]
      exact ih h
    | zero =>
      have hmap {x : Except String (List Statement)} {f : List Statement → List Statement}
          (h : x.map f = .error e) : x = .error e := by
        cases x with
        | error e' => exact h
        | ok list => cases h
      rw [statementsFrom] at h
      rw [runTokens]
      cases hoption : optionAt (token :: rest) with
      | some value =>
        simp only [hoption] at h
        exact ih (hmap h)
      | none =>
        simp only [hoption] at h
        dsimp only
        cases himport : parseLuaImportAt (token :: rest) with
        | error e => exact nofun
        | ok import? =>
          rw [himport] at h
          cases import? with
          | none => exact ih h
          | some import' =>
            have ih (s : Collected) := @ih s (import'.2 - 1) (hmap h)
            dsimp only
            cases resolveLuaImport files p import'.1 with
            | error e => exact nofun
            | ok next =>
              cases next with
              | none => exact ih s
              | some q =>
                dsimp only
                split
                · exact ih s
                · cases readImported files q with
                  | error e => exact nofun
                  | ok source =>
                    dsimp only
                    cases call q.text source
                        { s with required := note import'.1 q s.required } with
                    | error stop => exact nofun
                    | ok s₁ => exact ih s₁

/-- what is promised of a run of a file -/
structure Ran (files : BindingFiles) (active : List NormalPath) (p : NormalPath)
    (statements : Except String (List Statement)) (s s' : Collected) : Prop where
  exec : ∃ list output, statements = .ok list ∧
    Exec files active p list s.required s'.required output ∧ s'.options = s.options ++ output

/-- the statements of a file are run in order, when a call runs a file that is not running -/
theorem foldlM_ran {statements : List Statement}
    (hcall : ∀ q source s s', call (NormalPath.text q) source s = .ok s' →
      q ∈ active ∧ s' = s ∨ q ∉ active ∧ Ran files (q :: active) q (program source) s s')
    (h : statements.foldlM (runStatement files call p) s = .ok s') :
    Ran files active p (.ok statements) s s' := by
  induction statements generalizing s with
  | nil =>
    obtain rfl := Except.ok.inj h
    exact ⟨[], [], rfl, .nil, (List.append_nil _).symm⟩
  | cons statement rest ih =>
    rw [List.foldlM_cons] at h
    cases hstep : runStatement files call p s statement with
    | error stop =>
      rw [hstep] at h
      cases h
    | ok s₁ =>
      rw [hstep] at h
      obtain ⟨list, output, hlist, hexec, hoptions⟩ := ih h
      obtain rfl := Except.ok.inj hlist
      cases statement with
      | option value =>
        obtain rfl := Except.ok.inj hstep
        refine ⟨_, value :: output, rfl, .option hexec, ?_⟩
        rw [hoptions, List.append_assoc]
        rfl
      | load found =>
        rw [runStatement] at hstep
        split at hstep
        · cases hstep
        next hresolve =>
          obtain rfl := Except.ok.inj hstep
          exact ⟨_, output, rfl, .missing hresolve hexec, hoptions⟩
        next q hresolve =>
          split at hstep
          next honce =>
            obtain rfl := Except.ok.inj hstep
            exact ⟨_, output, rfl, .again hresolve honce hexec, hoptions⟩
          next honce =>
            split at hstep
            · cases hstep
            next source hread =>
              rcases hcall q source _ s₁ hstep with ⟨hrunning, rfl⟩ | ⟨hrunning, hran⟩
              · exact ⟨_, output, rfl, .active hresolve honce hread hrunning hexec, hoptions⟩
              · obtain ⟨statements, output', hprogram, hrun, hout⟩ := hran
                refine ⟨_, output' ++ output, rfl,
                  .load hresolve honce hread hrunning hprogram hrun hexec, ?_⟩
                rw [hoptions, hout, List.append_assoc]

/-- **a walk that ends has run the file** -/
theorem collectKbOptions_ran {path source : Text}
    (h : collectKbOptions files fuel active path source s = .ok s') :
    normalizePath path ∈ active ∧ s' = s ∨ normalizePath path ∉ active ∧
      Ran files (normalizePath path :: active) (normalizePath path) (program source) s s' := by
  induction fuel generalizing active path source s s' with
  | zero =>
    rw [collectKbOptions] at h
    split at h
    next hactive => exact .inl ⟨hactive, (Except.ok.inj h).symm⟩
    · cases h
  | succ fuel ih =>
    rw [collectKbOptions] at h
    split at h
    next hactive => exact .inl ⟨hactive, (Except.ok.inj h).symm⟩
    next hactive =>
      refine .inr ⟨hactive, ?_⟩
      rw [program]
      cases htokens : lexLua source with
      | error e =>
        rw [htokens] at h
        cases h
      | ok tokens =>
        rw [htokens] at h
        dsimp only at h ⊢
        cases hlist : statementsFrom 0 tokens with
        | error e => exact absurd h (runTokens_unreadable hlist)
        | ok statements =>
          rw [runTokens_statements hlist] at h
          refine foldlM_ran (fun q source s s' hstep => ?_) h
          have hran := ih hstep
          rwa [normalizePath_text] at hran

/-! ## the walk ends -/

theorem runTokens_fuel
    (hcall : ∀ q ∈ files.readable, ∀ source s, call q.text source s ≠ .error .outOfFuel) :
    runTokens files call p skip tokens s ≠ .error .outOfFuel := by
  induction tokens generalizing skip s with
  | nil =>
    rw [runTokens]
    exact nofun
  | cons token rest ih =>
    cases skip with
    | succ skip =>
      rw [runTokens]
      exact ih
    | zero =>
      rw [runTokens]
      cases optionAt (token :: rest) with
      | some value => exact ih
      | none =>
        dsimp only
        cases parseLuaImportAt (token :: rest) with
        | error e => exact nofun
        | ok import? =>
          cases import? with
          | none => exact ih
          | some import' =>
            dsimp only
            cases resolveLuaImport files p import'.1 with
            | error e => exact nofun
            | ok next =>
              cases next with
              | none => exact ih
              | some q =>
                dsimp only
                split
                · exact ih
                · cases hread : readImported files q with
                  | error e => exact nofun
                  | ok source =>
                    have hq := files.finite q source (readImported_eq hread)
                    have hstep := hcall q hq source
                      { s with required := note import'.1 q s.required }
                    dsimp only
                    cases hout : call q.text source
                        { s with required := note import'.1 q s.required } with
                    | error stop =>
                      rw [hout] at hstep
                      exact fun h => hstep h
                    | ok s₁ => exact ih

/-- **a file that is running takes one from those that can still be entered** -/
theorem collectKbOptions_fuel {path source : Text}
    (hfuel : normalizePath path ∈ files.readable ∧ Net.unseen files.readable active ≤ fuel ∨
      Net.unseen files.readable active < fuel) :
    collectKbOptions files fuel active path source s ≠ .error .outOfFuel := by
  induction fuel generalizing active path source s with
  | zero =>
    rw [collectKbOptions]
    split
    · exact nofun
    next hactive =>
      rcases hfuel with ⟨hmem, hle⟩ | hlt
      · have := Net.unseen_cons hmem hactive
        omega
      · omega
  | succ fuel ih =>
    rw [collectKbOptions]
    split
    · exact nofun
    next hactive =>
      cases lexLua source with
      | error e => exact nofun
      | ok tokens =>
        refine runTokens_fuel fun q hq source s => ih (.inl ⟨?_, ?_⟩)
        · rwa [normalizePath_text]
        · rcases hfuel with ⟨hmem, hle⟩ | hlt
          · have := Net.unseen_cons hmem hactive
            omega
          · have := @Net.unseen_mono _ _ files.readable _ _
              (List.subset_cons_self (normalizePath path) active)
            omega

/-! ## every run is found -/

/-- a run is what the walk does, unless it is stopped -/
theorem Exec.foldlM {running required required' : List NormalPath} {statements : List Statement}
    {output : List Text} (h : Exec files running p statements required required' output)
    (hs : s.required = required) (fuel : Nat) :
    statements.foldlM (runStatement files (collectKbOptions files fuel running) p) s =
        .ok { required := required', options := s.options ++ output } ∨
      statements.foldlM (runStatement files (collectKbOptions files fuel running) p) s =
        .error .outOfFuel := by
  induction h generalizing s fuel with
  | nil =>
    rw [List.append_nil, ← hs]
    exact .inl rfl
  | @option running p rest required required' output value h ih =>
    have := @ih { s with options := s.options ++ [value] } hs fuel
    rw [List.append_assoc] at this
    exact this
  | missing hresolve h ih =>
    rw [List.foldlM_cons, runStatement, hresolve]
    exact ih hs fuel
  | again hresolve honce h ih =>
    rw [List.foldlM_cons, runStatement, hresolve, hs]
    simp only [if_pos honce]
    exact ih hs fuel
  | @active running p rest required required' output found q source hresolve honce hread hrunning h
      ih =>
    have hcall (s : Collected) : collectKbOptions files fuel running q.text source s = .ok s := by
      cases fuel with
      | zero => rw [collectKbOptions, normalizePath_text, if_pos hrunning]
      | succ fuel => rw [collectKbOptions, normalizePath_text, if_pos hrunning]
    rw [List.foldlM_cons, runStatement, hresolve, hs]
    simp only [if_neg honce, hread, hcall]
    exact @ih { s with required := note found q required } rfl fuel
  | @load running p rest required required₁ required' statements output output' found q source
      hresolve honce hread hrunning hprogram hrun h ihrun ih =>
    rw [List.foldlM_cons, runStatement, hresolve, hs]
    simp only [if_neg honce, hread]
    have hcall : collectKbOptions files fuel running q.text source
          { s with required := note found q required } =
            .ok { required := required₁, options := s.options ++ output } ∨
        collectKbOptions files fuel running q.text source
          { s with required := note found q required } = .error .outOfFuel := by
      cases fuel with
      | zero =>
        rw [collectKbOptions, normalizePath_text, if_neg hrunning]
        exact .inr rfl
      | succ fuel =>
        rw [collectKbOptions, normalizePath_text]
        simp only [if_neg hrunning]
        rw [program] at hprogram
        cases htokens : lexLua source with
        | error e =>
          rw [htokens] at hprogram
          cases hprogram
        | ok tokens =>
          rw [htokens] at hprogram
          dsimp only at hprogram ⊢
          rw [runTokens_statements hprogram]
          exact @ihrun { s with required := note found q required } rfl fuel
    rcases hcall with hcall | hcall
    · rw [hcall]
      have := @ih { required := required₁, options := s.options ++ output } rfl fuel
      rw [List.append_assoc] at this
      exact this
    · rw [hcall]
      exact .inr rfl

/-- a run of the configuration from its root -/
def Runs (files : BindingFiles) (root : NormalPath) (source : Text) (options : List Text) : Prop :=
  ∃ statements required, program source = .ok statements ∧
    Exec files [root] root statements [] required options

/-- **the walk ends, and returns the options of a run, in the order in which they are set** -/
theorem collectReachableKbOptions_iff (files : BindingFiles) (path source : Text) (fuel : Nat)
    (hfuel : files.readable.length < fuel) :
    collectReachableKbOptions files fuel path source ≠ .error .outOfFuel ∧
      ∀ options, collectReachableKbOptions files fuel path source = .ok options ↔
        Runs files (normalizePath path) source options := by
  have hends : collectKbOptions files fuel [] path source { required := [], options := [] } ≠
      .error .outOfFuel :=
    collectKbOptions_fuel (.inr (Nat.lt_of_le_of_lt (List.length_filter_le _ _) hfuel))
  refine ⟨fun h => hends ?_, fun options => ⟨fun h => ?_, fun h => ?_⟩⟩
  · rw [collectReachableKbOptions] at h
    cases hout : collectKbOptions files fuel [] path source { required := [], options := [] } with
    | ok s =>
      rw [hout] at h
      cases h
    | error stop =>
      rw [hout] at h
      exact congrArg Except.error (Except.error.inj h)
  · rw [collectReachableKbOptions] at h
    cases hout : collectKbOptions files fuel [] path source { required := [], options := [] } with
    | error stop =>
      rw [hout] at h
      cases h
    | ok s =>
      rw [hout] at h
      obtain rfl := Except.ok.inj h
      rcases collectKbOptions_ran hout with ⟨hactive, -⟩ | ⟨-, statements, output, hprogram, hrun, hs⟩
      · cases hactive
      · exact ⟨statements, s.required, hprogram, by rw [hs]; exact hrun⟩
  · obtain ⟨statements, required, hprogram, hrun⟩ := h
    obtain ⟨fuel, rfl⟩ : ∃ n, fuel = n + 1 := ⟨fuel - 1, by omega⟩
    rw [collectKbOptions, if_neg List.not_mem_nil] at hends
    rw [collectReachableKbOptions, collectKbOptions, if_neg List.not_mem_nil]
    rw [program] at hprogram
    cases htokens : lexLua source with
    | error e =>
      rw [htokens] at hprogram
      cases hprogram
    | ok tokens =>
      rw [htokens] at hprogram hends
      dsimp only at hprogram hends ⊢
      rw [runTokens_statements hprogram] at hends ⊢
      rcases hrun.foldlM (s := { required := [], options := [] }) rfl fuel with hout | hout
      · rw [hout]
        rfl
      · exact absurd hout hends

end

/-- one file, which loads itself -/
def selfImport : BindingFiles where
  readToString path :=
    .ok (if path = "hyprland.lua".toList then some "dofile(\"hyprland.lua\")".toList else none)
  readable := [normalizePath "hyprland.lua".toList]
  finite p source h := by
    rw [Except.ok.injEq] at h
    split at h
    · rename_i hpath
      rw [← normalizePath_text p, hpath]
      exact List.mem_singleton_self _
    · cases h

end Voisu.Hyprland
