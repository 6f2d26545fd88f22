import Voisu.Lib.Substrings

/-!
# What curl reads

The two grammars that a request passes through when it is handed to curl as a configuration file.

* `readQuoted`, `quote`   a text in double quotes, with escaped quotes and backslashes;
* `readConfig`            the entries of a configuration file, `key = "value"` on a line;
* `readForm`              a form field: a file, the contents of a file, or a literal text, and what
                          follows the first semicolon that is not in quotes;
* `readForm_literal_iff`  **which texts are read back as they are**.

Left out of the two grammars are blanks around a name or a content, the comments, the unquoted
values and the long lines of a configuration file, a content that starts with `(`, the `,` that
separates the names of several files, and the globs of a URL.
-/

namespace Voisu.Lib.Curl

/-! ## quotes -/

/-- the text up to the closing quote, and what follows it -/
def readQuoted : List Char → Option (List Char × List Char)
  | [] => none
  | [c] => if c = '"' then some ([], []) else none
  | c :: d :: s =>
    if c = '"' then some ([], d :: s)
    else if c = '\\' ∧ (d = '\\' ∨ d = '"') then (readQuoted s).map fun r => (d :: r.1, r.2)
    else (readQuoted (d :: s)).map fun r => (c :: r.1, r.2)

def quoteChar (c : Char) : List Char := if c = '\\' ∨ c = '"' then ['\\', c] else [c]

def quote (s : List Char) : List Char := s.flatMap quoteChar

section
variable {s t w rest : List Char} {c d : Char}

@[simp] theorem quote_append (s t : List Char) : quote (s ++ t) = quote s ++ quote t :=
  List.flatMap_append

theorem readQuoted_end (s : List Char) : readQuoted ('"' :: s) = some ([], s) := by
  cases s <;> simp [readQuoted]

theorem readQuoted_escape (hd : d = '\\' ∨ d = '"') (s : List Char) :
    readQuoted ('\\' :: d :: s) = (readQuoted s).map fun r => (d :: r.1, r.2) := by
  rw [readQuoted, if_neg (by decide), if_pos ⟨rfl, hd⟩]

theorem readQuoted_char (hquote : c ≠ '"')
    (hlone : ∀ d, s.head? = some d → ¬(c = '\\' ∧ (d = '\\' ∨ d = '"'))) :
    readQuoted (c :: s) = (readQuoted s).map fun r => (c :: r.1, r.2) := by
  cases s with
  | nil => simp [readQuoted, hquote]
  | cons d s => rw [readQuoted, if_neg hquote, if_neg (hlone d rfl)]

/-- **a quoted text is read back** -/
theorem readQuoted_quote (s rest : List Char) :
    readQuoted (quote s ++ '"' :: rest) = some (s, rest) := by
  induction s with
  | nil => exact readQuoted_end rest
  | cons c s ih =>
    have hcons : quote (c :: s) = quoteChar c ++ quote s := List.flatMap_cons
    rw [hcons, List.append_assoc, quoteChar]
    by_cases h : c = '\\' ∨ c = '"'
    · rw [if_pos h]
      show readQuoted ('\\' :: c :: (quote s ++ '"' :: rest)) = _
      rw [readQuoted_escape h, ih]
      rfl
    · rw [if_neg h]
      show readQuoted (c :: (quote s ++ '"' :: rest)) = _
      have hslash : c ≠ '\\' := fun hc => h (.inl hc)
      rw [readQuoted_char (fun hc => h (.inr hc)) fun d _ hd => hslash hd.1, ih]
      rfl

/-- a text that was closed stays closed -/
theorem readQuoted_append (h : readQuoted s = some (w, rest)) (t : List Char) :
    readQuoted (s ++ t) = some (w, rest ++ t) := by
  induction s using readQuoted.induct generalizing w with
  | case1 => cases h
  | case2 =>
    obtain ⟨rfl, rfl⟩ := Prod.mk.inj (Option.some.inj h)
    exact readQuoted_end t
  | case3 c hc =>
    rw [readQuoted, if_neg hc] at h
    cases h
  | case4 d s =>
    rw [readQuoted_end] at h
    obtain ⟨rfl, rfl⟩ := Prod.mk.inj (Option.some.inj h)
    exact readQuoted_end _
  | case5 c d s hc hd ih =>
    rw [readQuoted, if_neg hc, if_pos hd] at h
    obtain ⟨r, hr, heq⟩ := Option.map_eq_some_iff.1 h
    obtain ⟨rfl, rfl⟩ := Prod.mk.inj heq
    show readQuoted (c :: d :: (s ++ t)) = _
    rw [readQuoted, if_neg hc, if_pos hd, ih hr]
    rfl
  | case6 c d s hc hd ih =>
    rw [readQuoted, if_neg hc, if_neg hd] at h
    obtain ⟨r, hr, heq⟩ := Option.map_eq_some_iff.1 h
    obtain ⟨rfl, rfl⟩ := Prod.mk.inj heq
    show readQuoted (c :: d :: (s ++ t)) = _
    rw [readQuoted, if_neg hc, if_neg hd]
    show (readQuoted ((d :: s) ++ t)).map _ = _
    rw [ih hr]
    rfl

/-- what was read is shorter than what was there -/
theorem readQuoted_length (h : readQuoted s = some (w, rest)) :
    w.length + rest.length < s.length := by
  induction s using readQuoted.induct generalizing w with
  | case1 => cases h
  | case2 =>
    obtain ⟨rfl, rfl⟩ := Prod.mk.inj (Option.some.inj h)
    exact Nat.zero_lt_one
  | case3 c hc =>
    rw [readQuoted, if_neg hc] at h
    cases h
  | case4 d s =>
    rw [readQuoted_end] at h
    obtain ⟨rfl, rfl⟩ := Prod.mk.inj (Option.some.inj h)
    simp
  | case5 c d s hc hd ih =>
    rw [readQuoted, if_neg hc, if_pos hd] at h
    obtain ⟨r, hr, heq⟩ := Option.map_eq_some_iff.1 h
    obtain ⟨rfl, rfl⟩ := Prod.mk.inj heq
    have hlen := ih hr
    simp only [List.length_cons]
    omega
  | case6 c d s hc hd ih =>
    rw [readQuoted, if_neg hc, if_neg hd] at h
    obtain ⟨r, hr, heq⟩ := Option.map_eq_some_iff.1 h
    obtain ⟨rfl, rfl⟩ := Prod.mk.inj heq
    have hlen := ih hr
    simp only [List.length_cons] at hlen ⊢
    omega

/-- a text without quotes closes nothing -/
theorem readQuoted_none (h : '"' ∉ t) : readQuoted t = none := by
  induction t using readQuoted.induct with
  | case1 => rfl
  | case2 => simp at h
  | case3 c hc => rw [readQuoted, if_neg hc]
  | case4 d s => simp at h
  | case5 c d s hc hd ih =>
    rw [readQuoted, if_neg hc, if_pos hd, ih fun hmem => h (by simp [hmem])]
    rfl
  | case6 c d s hc hd ih =>
    rw [readQuoted, if_neg hc, if_neg hd, ih fun hmem => h (List.mem_cons_of_mem c hmem)]
    rfl

/-- and leaves open what was -/
theorem readQuoted_append_none (h : readQuoted s = none) (hquote : '"' ∉ t)
    (hslash : t.head? ≠ some '\\') : readQuoted (s ++ t) = none := by
  induction s using readQuoted.induct with
  | case1 => exact readQuoted_none hquote
  | case2 => cases h
  | case3 c hc =>
    have hhead : ∀ d, t.head? = some d → ¬(c = '\\' ∧ (d = '\\' ∨ d = '"')) := by
      rintro d hd ⟨-, rfl | rfl⟩
      · exact hslash hd
      · exact hquote (List.mem_of_head? hd)
    rw [List.singleton_append, readQuoted_char hc hhead, readQuoted_none hquote]
    rfl
  | case4 d s =>
    rw [readQuoted_end] at h
    cases h
  | case5 c d s hc hd ih =>
    rw [readQuoted, if_neg hc, if_pos hd] at h
    show readQuoted (c :: d :: (s ++ t)) = none
    rw [readQuoted, if_neg hc, if_pos hd, ih (Option.map_eq_none_iff.1 h)]
    rfl
  | case6 c d s hc hd ih =>
    rw [readQuoted, if_neg hc, if_neg hd] at h
    show readQuoted (c :: d :: (s ++ t)) = none
    rw [readQuoted, if_neg hc, if_neg hd]
    show (readQuoted ((d :: s) ++ t)).map _ = none
    rw [ih (Option.map_eq_none_iff.1 h)]
    rfl

/-! ## the configuration file -/

def entryText (entry : List Char × List Char) : List Char :=
  entry.1 ++ " = \"".toList ++ quote entry.2 ++ ['"', '\n']

def readEntry (s : List Char) : Option ((List Char × List Char) × List Char) :=
  match splitOnceAt ' ' s with
  | some (key, '=' :: ' ' :: '"' :: body) =>
    match readQuoted body with
    | some (value, '\n' :: rest) => some ((key, value), rest)
    | _ => none
  | _ => none

/-- as many entries as `fuel`, each of which takes some characters -/
def readEntries : Nat → List Char → Option (List (List Char × List Char))
  | _, [] => some []
  | 0, _ :: _ => none
  | fuel + 1, s =>
    match readEntry s with
    | some (entry, rest) => (readEntries fuel rest).map (entry :: ·)
    | none => none

def readConfig (s : List Char) : Option (List (List Char × List Char)) := readEntries s.length s

theorem readEntry_entryText {entry : List Char × List Char} (hkey : ' ' ∉ entry.1)
    (rest : List Char) : readEntry (entryText entry ++ rest) = some (entry, rest) := by
  have htext : entryText entry ++ rest =
      entry.1 ++ ' ' :: '=' :: ' ' :: '"' :: (quote entry.2 ++ '"' :: '\n' :: rest) := by
    simp [entryText]
  simp only [htext, readEntry, splitOnceAt_append hkey, readQuoted_quote]

/-- **the entries of a file are read back** -/
theorem readEntries_entryText {entries : List (List Char × List Char)}
    (hkeys : ∀ entry ∈ entries, ' ' ∉ entry.1) {fuel : Nat} (hfuel : entries.length ≤ fuel) :
    readEntries fuel (entries.flatMap entryText) = some entries := by
  induction entries generalizing fuel with
  | nil => cases fuel <;> rfl
  | cons entry entries ih =>
    obtain ⟨hkey, hrest⟩ := List.forall_mem_cons.1 hkeys
    obtain ⟨fuel, rfl⟩ : ∃ n, fuel = n + 1 := ⟨fuel - 1, by simp at hfuel; omega⟩
    obtain ⟨c, s, hs⟩ : ∃ c s, entryText entry ++ entries.flatMap entryText = c :: s :=
      List.exists_cons_of_ne_nil (by simp [entryText])
    have hread := readEntry_entryText hkey (entries.flatMap entryText)
    rw [hs] at hread
    rw [List.flatMap_cons, hs, readEntries]
    · rw [hread]
      show (readEntries fuel (entries.flatMap entryText)).map _ = _
      rw [ih hrest (Nat.le_of_succ_le_succ hfuel)]
      rfl
    · exact List.cons_ne_nil c s

theorem length_le_entryText (entries : List (List Char × List Char)) :
    entries.length ≤ (entries.flatMap entryText).length := by
  induction entries with
  | nil => exact Nat.le_refl 0
  | cons entry entries ih =>
    have hentry : 1 ≤ (entryText entry).length := by
      simp only [entryText, List.length_append, List.length_cons]
      omega
    rw [List.flatMap_cons, List.length_append, List.length_cons]
    omega

theorem readConfig_entryText {entries : List (List Char × List Char)}
    (hkeys : ∀ entry ∈ entries, ' ' ∉ entry.1) :
    readConfig (entries.flatMap entryText) = some entries :=
  readEntries_entryText hkeys (length_le_entryText entries)

/-! ## form fields -/

inductive FormField where
  | file (name path : List Char) (attributes : Option (List Char))
  | contents (name path : List Char) (attributes : Option (List Char))
  | literal (name value : List Char) (attributes : Option (List Char))
  | illegal (text : List Char)
deriving DecidableEq, Repr

def cutAttributes (s : List Char) : List Char × Option (List Char) :=
  match splitOnceAt ';' s with
  | some (value, attributes) => (value, some attributes)
  | none => (s, none)

/-- the text up to the first semicolon that is not in quotes; the quotes are not part of it -/
def readWord : List Char → List Char × Option (List Char)
  | [] => ([], none)
  | c :: body =>
    if c = '"' then
      match readQuoted body with
      | some (value, rest) => (value, (cutAttributes rest).2)
      | none => cutAttributes (c :: body)
    else cutAttributes (c :: body)

def readContent (name : List Char) : List Char → FormField
  | [] => .literal name [] none
  | c :: content =>
    if c = '@' then .file name (readWord content).1 (readWord content).2
    else if c = '<' then .contents name (readWord content).1 (readWord content).2
    else .literal name (readWord (c :: content)).1 (readWord (c :: content)).2

def readForm (s : List Char) : FormField :=
  match splitOnceAt '=' s with
  | some (name, content) => readContent name content
  | none => .illegal s

/-- a text that starts with a quote and holds the one that closes it -/
def Quoted (s : List Char) : Prop := ∃ body, s = '"' :: body ∧ (readQuoted body).isSome = true

/-- a text that stands for itself where a word is read -/
structure PlainWord (s : List Char) : Prop where
  unquoted : ¬ Quoted s
  semicolon : ';' ∉ s

/-- a text that stands for itself as the content of a field -/
structure PlainContent (s : List Char) : Prop extends PlainWord s where
  file : s.head? ≠ some '@'
  contents : s.head? ≠ some '<'

theorem cutAttributes_plain (h : ';' ∉ s) : cutAttributes s = (s, none) := by
  rw [cutAttributes, splitOnceAt, if_neg h]

theorem cutAttributes_append (h : ';' ∉ s) (t : List Char) :
    cutAttributes (s ++ ';' :: t) = (s, some t) := by
  rw [cutAttributes, splitOnceAt_append h]

theorem readWord_unquoted (h : ¬ Quoted s) : readWord s = cutAttributes s := by
  cases s with
  | nil => rfl
  | cons c body =>
    rw [readWord]
    split
    · rename_i hc
      have hnone : readQuoted body = none := by
        cases hread : readQuoted body with
        | none => rfl
        | some r => exact absurd ⟨body, by rw [hc], by rw [hread]; rfl⟩ h
      rw [hnone]
    · rfl

/-- what is read of a quoted text is shorter -/
theorem readWord_quoted (h : Quoted s) (t : List Char) :
    (readWord (s ++ t)).1.length < s.length := by
  obtain ⟨body, rfl, hsome⟩ := h
  obtain ⟨⟨value, rest⟩, hread⟩ := Option.isSome_iff_exists.1 hsome
  have hlen := readQuoted_length hread
  have hword : (readWord ('"' :: body ++ t)).1 = value := by
    rw [List.cons_append, readWord, if_pos rfl, readQuoted_append hread]
  rw [hword, List.length_cons]
  omega

/-- **a word is read as it is exactly when it is plain** -/
theorem readWord_eq_iff : readWord s = (s, none) ↔ PlainWord s := by
  constructor
  · intro h
    have hquoted : ¬ Quoted s := fun hq => by
      have hlen := readWord_quoted hq []
      rw [List.append_nil, h] at hlen
      exact Nat.lt_irrefl _ hlen
    refine ⟨hquoted, fun hmem => ?_⟩
    rw [readWord_unquoted hquoted, cutAttributes, splitOnceAt, if_pos hmem] at h
    cases congrArg Prod.snd h
  · intro h
    rw [readWord_unquoted h.unquoted, cutAttributes_plain h.semicolon]

/-- **and also in front of attributes, when these hold no quotes** -/
theorem readWord_append_iff {attributes : List Char} (hquote : '"' ∉ attributes) :
    readWord (s ++ ';' :: attributes) = (s, some attributes) ↔ PlainWord s := by
  have hopen (h : ¬ Quoted s) : ¬ Quoted (s ++ ';' :: attributes) := by
    rintro ⟨body, hbody, hsome⟩
    cases s with
    | nil => cases hbody
    | cons c s =>
      have hc : c = '"' := (List.cons.inj hbody).1
      have htail : s ++ ';' :: attributes = body := (List.cons.inj hbody).2
      have hnone : readQuoted s = none :=
        Option.not_isSome_iff_eq_none.1 fun hs => h ⟨s, by rw [hc], hs⟩
      have hrest : readQuoted (s ++ ';' :: attributes) = none :=
        readQuoted_append_none hnone (by simpa using hquote) (by simp)
      rw [← htail, hrest] at hsome
      cases hsome
  constructor
  · intro h
    have hquoted : ¬ Quoted s := fun hq => by
      have hlen := readWord_quoted hq (';' :: attributes)
      rw [h] at hlen
      exact Nat.lt_irrefl _ hlen
    refine ⟨hquoted, fun hmem => ?_⟩
    have hfirst : ';' ∈ s ++ ';' :: attributes := List.mem_append_left _ hmem
    rw [readWord_unquoted (hopen hquoted), cutAttributes, splitOnceAt, if_pos hfirst] at h
    have hvalue : (s ++ ';' :: attributes).takeWhile (· != ';') = s := congrArg Prod.fst h
    rw [← hvalue] at hmem
    exact absurd (List.all_eq_true.1 List.all_takeWhile ';' hmem) (by decide)
  · intro h
    rw [readWord_unquoted (hopen h.unquoted), cutAttributes_append h.semicolon]

/-- **a field is read as a literal text exactly when its content is plain** -/
theorem readForm_literal_iff {name : List Char} (hname : '=' ∉ name) (value : List Char) :
    readForm (name ++ '=' :: value) = .literal name value none ↔ PlainContent value := by
  rw [readForm, splitOnceAt_append hname]
  show readContent name value = _ ↔ _
  cases value with
  | nil =>
    refine ⟨fun _ => ⟨⟨?_, List.not_mem_nil⟩, nofun, nofun⟩, fun _ => rfl⟩
    rintro ⟨body, hbody, -⟩
    cases hbody
  | cons c value =>
    rw [readContent]
    split
    next hc => exact ⟨nofun, fun h => absurd (by rw [hc]; rfl) h.file⟩
    next hfile =>
      split
      next hc => exact ⟨nofun, fun h => absurd (by rw [hc]; rfl) h.contents⟩
      next hcontents =>
        have hhead {d : Char} (hd : c ≠ d) : (c :: value).head? ≠ some d := fun h =>
          hd (Option.some.inj h)
        constructor
        · intro h
          obtain ⟨-, hvalue, hattributes⟩ := FormField.literal.inj h
          exact ⟨readWord_eq_iff.1 (Prod.ext hvalue hattributes), hhead hfile, hhead hcontents⟩
        · intro h
          rw [readWord_eq_iff.2 h.toPlainWord]

/-- **and as a file, with attributes, exactly when its name is a plain word** -/
theorem readForm_file_iff {name attributes : List Char} (hname : '=' ∉ name)
    (hquote : '"' ∉ attributes) (path : List Char) :
    readForm (name ++ '=' :: '@' :: path ++ ';' :: attributes) =
      .file name path (some attributes) ↔ PlainWord path := by
  rw [List.append_assoc, List.cons_append, List.cons_append, readForm, splitOnceAt_append hname]
  show FormField.file name (readWord (path ++ ';' :: attributes)).1 _ = _ ↔ _
  rw [← readWord_append_iff hquote, FormField.file.injEq, Prod.ext_iff]
  exact and_iff_right rfl

end

end Voisu.Lib.Curl
