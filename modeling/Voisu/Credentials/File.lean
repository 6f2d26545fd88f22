import Voisu.Provider
import Voisu.Lib.Lines
import Voisu.Lib.Substrings

/-!
# The credential fallback file

A file of lines `deepgram=<key>` and `groq=<key>` under a header.  Writing one provider keeps the lines
of the other, and removing the last credential removes the file.

* `findLine`, `mergeLine`, `pruned`             the text of the file;
* `findLine_mergeLine`, `findLine_pruned`       what is found in it afterwards;
* `FileSecretStore.store`, `read`, `remove`     the calls, with everything that the disk may refuse.
-/

namespace Voisu.Credentials
open Lib

/-! ## credentials -/

structure Credential where
  value : Text
  nonempty : value ≠ []
  oneLine : '\n' ∉ value ∧ '\r' ∉ value
deriving DecidableEq

def secretError (diagnostic : Text) : BoundaryError := BoundaryError.new .secretStorage diagnostic

def invalidCredential : BoundaryError :=
  secretError "credential is empty or contains a line break".toList

def Credential.new (value : Text) : Except BoundaryError Credential :=
  if h : value ≠ [] ∧ '\n' ∉ value ∧ '\r' ∉ value then .ok ⟨value, h.1, h.2⟩
  else .error invalidCredential

/-! ## the text -/

def secretServiceValue : Provider → Text
  | .deepgram => "deepgram".toList
  | .groq => "groq".toList

def headerLine : Text :=
  "# Voisu credential fallback (Secret Service was unavailable). Mode 0600.".toList

/-- whether a line is the line of a key -/
def keyed (key line : Text) : Bool :=
  match splitOnceAt '=' line with
  | some (name, _) => trim name = key
  | none => false

def lineValue (key line : Text) : Option Text :=
  match splitOnceAt '=' line with
  | some (name, value) => if trim name = key then some (trim value) else none
  | none => none

def findLine (contents : Text) (provider : Provider) : Option Text :=
  (strLines contents).findSome? (lineValue (secretServiceValue provider))

def keyLine (key value : Text) : Text := key ++ '=' :: value

/-- the lines of the file but the header -/
def bodyLines (existing : Text) : List Text := (strLines existing).filter (· ≠ headerLine)

def mergeLine (existing : Text) (provider : Provider) (value : Text) : Text :=
  let key := secretServiceValue provider
  let lines := bodyLines existing
  unlines (headerLine ::
    (lines.map fun line => if keyed key line then keyLine key value else line) ++
    if lines.any (keyed key) then [] else [keyLine key value])

def keptLines (existing : Text) (provider : Provider) : List Text :=
  (bodyLines existing).filter fun line => !keyed (secretServiceValue provider) line

/-- the file without the line of a provider; nothing where no credential is left -/
def pruned (existing : Text) (provider : Provider) : Option Text :=
  let kept := keptLines existing provider
  if kept.all fun line => (trim line).isEmpty then none else some (unlines (headerLine :: kept))

/-! ## lines -/

theorem splitOnceAt_concat {c : Char} (hc : c ≠ '=') (s : Text) :
    splitOnceAt '=' (s ++ [c]) = (splitOnceAt '=' s).map fun p => (p.1, p.2 ++ [c]) := by
  induction s with
  | nil => simp [splitOnceAt, hc.symm]
  | cons a s ih =>
    rw [List.cons_append, splitOnceAt_cons, splitOnceAt_cons, ih]
    split
    · rfl
    · cases splitOnceAt '=' s <;> rfl

/-- the carriage return that ends a line is white space of its value -/
theorem lineValue_chompReturn (key line : Text) : lineValue key (chompReturn line) = lineValue key line := by
  unfold chompReturn
  split
  · rename_i h
    obtain ⟨s, rfl⟩ : ∃ s, line = s ++ ['\r'] := List.getLast?_eq_some_iff.mp h
    rw [List.dropLast_concat]
    unfold lineValue
    rw [splitOnceAt_concat (by decide)]
    cases splitOnceAt '=' s with
    | none => rfl
    | some p =>
      have htrim : trim (p.2 ++ ['\r']) = trim p.2 := trimMatches_concat (by decide) p.2
      show _ = if trim p.1 = key then some (trim (p.2 ++ ['\r'])) else none
      rw [htrim]
  · rfl

theorem lineValue_isSome (key line : Text) : (lineValue key line).isSome = keyed key line := by
  unfold lineValue keyed
  cases splitOnceAt '=' line with
  | none => rfl
  | some p =>
    dsimp only
    by_cases h : trim p.1 = key
    · rw [if_pos h]
      exact (decide_eq_true h).symm
    · rw [if_neg h]
      exact (decide_eq_false h).symm

theorem lineValue_eq_none {key line : Text} (h : keyed key line = false) : lineValue key line = none := by
  rw [← lineValue_isSome] at h
  exact Option.not_isSome_iff_eq_none.mp (by simp [h])

/-- a line is the line of one key -/
theorem keyed_ne {key other line : Text} (hne : key ≠ other) (h : keyed key line = true) :
    keyed other line = false := by
  unfold keyed at *
  cases hs : splitOnceAt '=' line with
  | none => rfl
  | some p =>
    rw [hs] at h
    have hname : trim p.1 = key := of_decide_eq_true h
    exact decide_eq_false fun hother => hne (hname.symm.trans hother)

theorem keyed_headerLine (provider : Provider) : keyed (secretServiceValue provider) headerLine = false := by
  cases provider <;> decide

theorem secretServiceValue_ne {p q : Provider} (h : p ≠ q) :
    secretServiceValue p ≠ secretServiceValue q := by
  cases p <;> cases q <;> first | exact absurd rfl h | decide

/-! ## what is found -/

theorem findSome?_chompReturn (key : Text) (lines : List Text) :
    (lines.map chompReturn).findSome? (lineValue key) = lines.findSome? (lineValue key) := by
  rw [List.findSome?_map]
  congr 1
  funext line
  exact lineValue_chompReturn key line

theorem not_mem_headerLine : '\n' ∉ headerLine := by decide

/-- a text that is written line by line under the header is found line by line -/
theorem findLine_unlines {lines : List Text} (hlines : ∀ l ∈ lines, '\n' ∉ l) (provider : Provider) :
    findLine (unlines (headerLine :: lines)) provider =
      lines.findSome? (lineValue (secretServiceValue provider)) := by
  have hall : ∀ l ∈ headerLine :: lines, '\n' ∉ l := by
    intro l hl
    rcases List.mem_cons.mp hl with rfl | hl
    · exact not_mem_headerLine
    · exact hlines l hl
  rw [findLine, strLines_unlines hall, findSome?_chompReturn, List.findSome?_cons,
    lineValue_eq_none (keyed_headerLine provider)]

/-- the header is nobody's line -/
theorem findSome?_bodyLines (existing : Text) (provider : Provider) :
    (bodyLines existing).findSome? (lineValue (secretServiceValue provider)) =
      findLine existing provider := by
  unfold bodyLines findLine
  induction strLines existing with
  | nil => rfl
  | cons line lines ih =>
    by_cases h : line = headerLine
    · rw [List.filter_cons_of_neg (by simp [h]), ih, h, List.findSome?_cons,
        lineValue_eq_none (keyed_headerLine provider)]
    · rw [List.filter_cons_of_pos (by simp [h]), List.findSome?_cons, List.findSome?_cons, ih]

theorem not_mem_bodyLines {existing : Text} : ∀ l ∈ bodyLines existing, '\n' ∉ l := by
  intro l hl
  exact not_mem_of_mem_strLines (List.mem_filter.mp hl).1

theorem lineValue_keyLine (provider : Provider) (value : Text) :
    lineValue (secretServiceValue provider) (keyLine (secretServiceValue provider) value) =
      some (trim value) := by
  have hsplit (key : Text) (hkey : '=' ∉ key) :
      splitOnceAt '=' (keyLine key value) = some (key, value) := splitOnceAt_append hkey
  unfold lineValue
  rw [hsplit _ (by cases provider <;> decide)]
  exact if_pos (by cases provider <;> decide)

/-- the lines of `merge_line` after the header -/
def mergedLines (key value : Text) (lines : List Text) : List Text :=
  (lines.map fun line => if keyed key line then keyLine key value else line) ++
    if lines.any (keyed key) then [] else [keyLine key value]

theorem mergedLines_found (provider : Provider) (value : Text) (lines : List Text) :
    (mergedLines (secretServiceValue provider) value lines).findSome?
      (lineValue (secretServiceValue provider)) = some (trim value) := by
  have hline := lineValue_keyLine provider value
  induction lines with
  | nil => simp [mergedLines, hline]
  | cons line lines ih =>
    unfold mergedLines at ih ⊢
    by_cases hk : keyed (secretServiceValue provider) line = true
    · simp [hk, hline]
    · have hnone := lineValue_eq_none (Bool.eq_false_iff.mpr hk)
      rw [List.map_cons, if_neg hk, List.cons_append, List.findSome?_cons, hnone, List.any_cons,
        Bool.eq_false_iff.mpr hk, Bool.false_or]
      exact ih

theorem keyed_keyLine (provider : Provider) (value : Text) :
    keyed (secretServiceValue provider) (keyLine (secretServiceValue provider) value) = true := by
  rw [← lineValue_isSome, lineValue_keyLine]
  rfl

theorem mergedLines_other {p q : Provider} (hpq : p ≠ q) (value : Text) (lines : List Text) :
    (mergedLines (secretServiceValue p) value lines).findSome? (lineValue (secretServiceValue q)) =
      lines.findSome? (lineValue (secretServiceValue q)) := by
  have hne := secretServiceValue_ne hpq
  have hnone := lineValue_eq_none (keyed_ne hne (keyed_keyLine p value))
  have hmap : (lines.map fun line => if keyed (secretServiceValue p) line
      then keyLine (secretServiceValue p) value else line).findSome? (lineValue (secretServiceValue q)) =
        lines.findSome? (lineValue (secretServiceValue q)) := by
    rw [List.findSome?_map]
    congr 1
    funext line
    show lineValue _ (if keyed (secretServiceValue p) line then _ else line) = _
    split
    · rename_i hk
      rw [hnone, lineValue_eq_none (keyed_ne hne hk)]
    · rfl
  unfold mergedLines
  rw [List.findSome?_append, hmap]
  split
  · simp
  · simp [hnone]

theorem mergeLine_eq (existing : Text) (provider : Provider) (value : Text) :
    mergeLine existing provider value =
      unlines (headerLine :: mergedLines (secretServiceValue provider) value (bodyLines existing)) :=
  rfl

theorem not_mem_mergedLines {provider : Provider} {value : Text} (h : '\n' ∉ value) {existing : Text} :
    ∀ l ∈ mergedLines (secretServiceValue provider) value (bodyLines existing), '\n' ∉ l := by
  have hline : '\n' ∉ keyLine (secretServiceValue provider) value := by
    intro hmem
    rcases List.mem_append.mp hmem with hmem | hmem
    · cases provider <;> exact absurd hmem (by decide)
    · rcases List.mem_cons.mp hmem with hmem | hmem
      · exact absurd hmem (by decide)
      · exact h hmem
  intro l hl
  rcases List.mem_append.mp hl with hl | hl
  · obtain ⟨line, hmem, rfl⟩ := List.mem_map.mp hl
    split
    · exact hline
    · exact not_mem_bodyLines line hmem
  · split at hl
    · cases hl
    · obtain rfl := List.mem_singleton.mp hl
      exact hline

/-- **after a write the new value is found, without the white space around it, and the other
provider's line as before** -/
theorem findLine_mergeLine (existing : Text) (p q : Provider) {value : Text}
    (hline : '\n' ∉ value) : findLine (mergeLine existing p value) q =
      if p = q then some (trim value) else findLine existing q := by
  rw [mergeLine_eq, findLine_unlines (not_mem_mergedLines hline)]
  by_cases hpq : p = q
  · subst hpq
    rw [if_pos rfl]
    exact mergedLines_found p value _
  · rw [if_neg hpq, mergedLines_other hpq value, findSome?_bodyLines]

/-- the lines that are kept hold no value of the provider, and those of the other as before -/
theorem findSome?_keptLines (existing : Text) (p q : Provider) :
    (keptLines existing p).findSome? (lineValue (secretServiceValue q)) =
      if p = q then none else findLine existing q := by
  by_cases hpq : p = q
  · subst hpq
    rw [if_pos rfl, List.findSome?_eq_none_iff]
    intro line hline
    exact lineValue_eq_none (by simpa using (List.mem_filter.mp hline).2)
  · rw [if_neg hpq, ← findSome?_bodyLines]
    unfold keptLines
    induction bodyLines existing with
    | nil => rfl
    | cons line lines ih =>
      by_cases hk : keyed (secretServiceValue p) line = true
      · rw [List.filter_cons_of_neg (by simp [hk]), ih, List.findSome?_cons,
          lineValue_eq_none (keyed_ne (secretServiceValue_ne hpq) hk)]
      · rw [List.filter_cons_of_pos (by simp [hk]), List.findSome?_cons, List.findSome?_cons, ih]

theorem lineValue_blank {key line : Text} (h : (trim line).isEmpty = true) : lineValue key line = none := by
  refine lineValue_eq_none ?_
  unfold keyed
  have hnot : '=' ∉ line := by
    intro hmem
    obtain ⟨g, g', hsplit, hg, hg'⟩ := trimMatches_split isWhitespace line
    rw [show trimMatches isWhitespace line = [] from List.isEmpty_iff.mp h, List.append_nil] at hsplit
    rw [hsplit] at hmem
    have hspace : isWhitespace '=' = true := by
      rcases List.mem_append.mp hmem with hmem | hmem
      · exact List.all_eq_true.mp hg _ hmem
      · exact List.all_eq_true.mp hg' _ hmem
    exact absurd hspace (by decide)
  have hsplit : splitOnceAt '=' line = none := if_neg hnot
  rw [hsplit]

/-- what is found in a file that may be missing -/
def foundIn (file : Option Text) (provider : Provider) : Option Text :=
  file.bind fun contents => findLine contents provider

/-- **after a removal nothing of the provider is found, and the other provider's line as before** -/
theorem foundIn_pruned (existing : Text) (p q : Provider) :
    foundIn (pruned existing p) q = if p = q then none else findLine existing q := by
  have hkept := findSome?_keptLines existing p q
  unfold pruned
  dsimp only
  split
  · rename_i hblank
    rw [← hkept]
    refine (List.findSome?_eq_none_iff.mpr ?_).symm
    intro line hline
    exact lineValue_blank (List.all_eq_true.mp hblank line hline)
  · have hbroken : ∀ l ∈ keptLines existing p, '\n' ∉ l :=
      fun l hl => not_mem_bodyLines l (List.mem_filter.mp hl).1
    rw [← hkept, foundIn, Option.bind_some, findLine_unlines hbroken]

/-! ## the calls -/

/-- what works during a call: creating the directory, opening and locking the lock file, reading, the
three steps of an atomic write, deleting -/
structure Disk where
  directory : Bool
  openLock : Bool
  lock : Bool
  read : Bool
  stage : Bool
  write : Bool
  persist : Bool
  delete : Bool
deriving DecidableEq, Repr

def Disk.sound : Disk :=
  { directory := true, openLock := true, lock := true, read := true, stage := true, write := true,
    persist := true, delete := true }

/-- `CredentialsLock::acquire` -/
def Disk.acquire (disk : Disk) : Except BoundaryError Unit :=
  if !disk.openLock then
    .error (secretError "cannot open the credential fallback lock file".toList)
  else if !disk.lock then .error (secretError "cannot lock the credential fallback file".toList)
  else .ok ()

/-- the file that an atomic write leaves -/
def Disk.writeAtomic (disk : Disk) (contents : Text) : Except BoundaryError Text :=
  if !disk.stage then .error (secretError "cannot stage credential write".toList)
  else if !disk.write then
    .error (secretError "cannot write the credential fallback file".toList)
  else if !disk.persist then
    .error (secretError "cannot persist the credential fallback file".toList)
  else .ok contents

theorem Disk.writeAtomic_ok {disk : Disk} {contents written : Text}
    (h : disk.writeAtomic contents = .ok written) : written = contents := by
  unfold Disk.writeAtomic at h
  repeat' split at h
  all_goals cases h
  rfl

inductive RemoveError where
  | targetPresent (error : BoundaryError)
  | unverifiable (error : BoundaryError)

namespace FileSecretStore

/-- a missing file is empty; `none` where it cannot be read -/
def readLines (disk : Disk) (file : Option Text) : Except BoundaryError Text :=
  match file with
  | none => .ok []
  | some contents =>
    if disk.read then .ok contents
    else .error (secretError "cannot read the credential fallback file before writing".toList)

/-- the result, and the file after the call -/
def store (disk : Disk) (file : Option Text) (provider : Provider) (credential : Credential) :
    Except BoundaryError Unit × Option Text :=
  if !disk.directory then (.error (secretError "cannot create credential directory".toList), file)
  else
    match disk.acquire with
    | .error error => (.error error, file)
    | .ok () =>
      match readLines disk file with
      | .error error => (.error error, file)
      | .ok existing =>
        match disk.writeAtomic (mergeLine existing provider credential.value) with
        | .error error => (.error error, file)
        | .ok written => (.ok (), some written)

def read (disk : Disk) (file : Option Text) (provider : Provider) :
    Except BoundaryError (Option Credential) :=
  match file with
  | none => .ok none
  | some contents =>
    if !disk.read then .error (secretError "cannot read the credential fallback file".toList)
    else
      match findLine contents provider with
      | some value => (Credential.new value).map some
      | none => .ok none

def remove (disk : Disk) (file : Option Text) (provider : Provider) :
    Except RemoveError Bool × Option Text :=
  match file with
  | none => (.ok false, none)
  | some contents =>
    match disk.acquire with
    | .error error =>
      if !disk.read then
        (.error (.unverifiable (secretError
          "cannot verify whether the credential fallback file holds this provider".toList)), file)
      else if (findLine contents provider).isSome then (.error (.targetPresent error), file)
      else (.ok false, file)
    | .ok () =>
      if !disk.read then
        (.error (.unverifiable (secretError
          "cannot read the credential fallback file before pruning".toList)), file)
      else if !(bodyLines contents).any (keyed (secretServiceValue provider)) then (.ok false, file)
      else
        match pruned contents provider with
        | none =>
          if disk.delete then (.ok true, none)
          else
            (.error (.targetPresent (secretError
              "cannot delete the emptied credential fallback file".toList)), file)
        | some body =>
          match disk.writeAtomic body with
          | .error error => (.error (.targetPresent error), file)
          | .ok written => (.ok true, some written)

/-! ## what the calls do -/

theorem store_cases (disk : Disk) (file : Option Text) (provider : Provider) (credential : Credential) :
    (∃ error, store disk file provider credential = (.error error, file)) ∨
    store disk file provider credential =
      (.ok (), some (mergeLine (file.getD []) provider credential.value)) := by
  unfold store
  split
  · exact .inl ⟨_, rfl⟩
  cases disk.acquire with
  | error error => exact .inl ⟨error, rfl⟩
  | ok u =>
    dsimp only
    cases hread : readLines disk file with
    | error error => exact .inl ⟨error, rfl⟩
    | ok existing =>
      dsimp only
      have hexisting : existing = file.getD [] := by
        unfold readLines at hread
        split at hread
        · exact (Except.ok.inj hread).symm
        · split at hread
          · exact (Except.ok.inj hread).symm
          · cases hread
      cases hwrite : disk.writeAtomic (mergeLine existing provider credential.value) with
      | error error => exact .inl ⟨error, rfl⟩
      | ok written => rw [Disk.writeAtomic_ok hwrite, hexisting]; exact .inr rfl

/-- a store that succeeds: the credential is found, and the other provider's as before -/
theorem foundIn_store {disk : Disk} {file : Option Text} {p : Provider} {c : Credential}
    (hok : (store disk file p c).1 = .ok ()) (htrim : trim c.value = c.value) (q : Provider) :
    foundIn (store disk file p c).2 q = if p = q then some c.value else foundIn file q := by
  rcases store_cases disk file p c with ⟨error, h⟩ | h
  · rw [h] at hok
    cases hok
  · rw [h]
    rw [foundIn, Option.bind_some, findLine_mergeLine _ p q c.oneLine.1, htrim]
    cases file with
    | none => rfl
    | some contents => rfl

theorem store_error {disk : Disk} {file : Option Text} {p : Provider} {c : Credential}
    (h : (store disk file p c).1 ≠ .ok ()) : (store disk file p c).2 = file := by
  rcases store_cases disk file p c with ⟨error, heq⟩ | heq
  · rw [heq]
  · rw [heq] at h
    exact absurd rfl h

/-- no line of the provider is found where none has its key -/
theorem findLine_none {contents : Text} {provider : Provider}
    (h : (bodyLines contents).any (keyed (secretServiceValue provider)) = false) :
    findLine contents provider = none := by
  rw [← findSome?_bodyLines, List.findSome?_eq_none_iff]
  intro line hline
  exact lineValue_eq_none (Bool.eq_false_iff.mpr (List.any_eq_false.mp h line hline))

/-- a removal fails and leaves the file, finds nothing of the provider and leaves the file, or prunes
the file of its lines -/
theorem remove_cases (disk : Disk) (contents : Text) (p : Provider) :
    (∃ error, remove disk (some contents) p = (.error error, some contents)) ∨
    (findLine contents p = none ∧ remove disk (some contents) p = (.ok false, some contents)) ∨
    ((bodyLines contents).any (keyed (secretServiceValue p)) = true ∧
      remove disk (some contents) p = (.ok true, pruned contents p)) := by
  unfold remove
  dsimp only
  cases disk.acquire with
  | error error =>
    dsimp only
    split
    · exact .inl ⟨_, rfl⟩
    · split
      · exact .inl ⟨_, rfl⟩
      · rename_i hnone
        exact .inr (.inl ⟨Option.not_isSome_iff_eq_none.mp hnone, rfl⟩)
  | ok u =>
    dsimp only
    split
    · exact .inl ⟨_, rfl⟩
    split
    · rename_i hany
      exact .inr (.inl ⟨findLine_none (by simpa using hany), rfl⟩)
    rename_i hany
    have hany : (bodyLines contents).any (keyed (secretServiceValue p)) = true := by simpa using hany
    cases pruned contents p with
    | none =>
      dsimp only
      split
      · exact .inr (.inr ⟨hany, rfl⟩)
      · exact .inl ⟨_, rfl⟩
    | some body =>
      dsimp only
      cases hwrite : disk.writeAtomic body with
      | error error => exact .inl ⟨_, rfl⟩
      | ok written =>
        rw [Disk.writeAtomic_ok hwrite]
        exact .inr (.inr ⟨hany, rfl⟩)

/-- a removal leaves what is found of the other provider -/
theorem foundIn_remove (disk : Disk) (file : Option Text) (p q : Provider) :
    foundIn (remove disk file p).2 q = foundIn file q ∨
      (p = q ∧ foundIn (remove disk file p).2 q = none) := by
  cases file with
  | none => exact .inl rfl
  | some contents =>
    rcases remove_cases disk contents p with ⟨error, h⟩ | ⟨-, h⟩ | ⟨-, h⟩
    · rw [h]
      exact .inl rfl
    · rw [h]
      exact .inl rfl
    · rw [h]
      show foundIn (pruned contents p) q = _ ∨ (p = q ∧ foundIn (pruned contents p) q = none)
      rw [foundIn_pruned]
      split
      · rename_i hpq
        exact .inr ⟨hpq, rfl⟩
      · exact .inl rfl

theorem foundIn_remove_ok {disk : Disk} {file : Option Text} {p : Provider}
    (h : ∃ removed, (remove disk file p).1 = .ok removed) : foundIn (remove disk file p).2 p = none := by
  obtain ⟨removed, hok⟩ := h
  cases file with
  | none => rfl
  | some contents =>
    rcases remove_cases disk contents p with ⟨error, h⟩ | ⟨hnone, h⟩ | ⟨-, h⟩
    · rw [h] at hok
      cases hok
    · rw [h]
      exact hnone
    · rw [h]
      show foundIn (pruned contents p) p = none
      rw [foundIn_pruned, if_pos rfl]

/-- what is read is what is found -/
theorem read_ok {disk : Disk} {file : Option Text} {p : Provider} {c : Credential}
    (h : read disk file p = .ok (some c)) : foundIn file p = some c.value := by
  cases file with
  | none => cases h
  | some contents =>
    unfold read at h
    dsimp only at h
    split at h
    · cases h
    · cases hfind : findLine contents p with
      | none =>
        rw [hfind] at h
        cases h
      | some value =>
        rw [hfind] at h
        dsimp only at h
        show findLine contents p = _
        rw [hfind]
        have hnew : Credential.new value = .ok c := by
          cases hn : Credential.new value with
          | error e =>
            rw [hn] at h
            cases h
          | ok c' =>
            rw [hn] at h
            have : some c' = some c := Except.ok.inj h
            rw [Option.some.inj this]
        unfold Credential.new at hnew
        split at hnew
        · obtain rfl := Except.ok.inj hnew
          rfl
        · cases hnew

end FileSecretStore

end Voisu.Credentials
