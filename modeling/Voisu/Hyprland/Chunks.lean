import Voisu.Hyprland.Regions

/-!
# The tokens of a source are those of its chunks

A piece never reaches over a line break that ends its text, and a marker is a comment.  The tokens of a
source are therefore those of its chunks, one chunk after the other.

* `lexPiece_append`     a piece of a text that ends with a line is a piece of every longer text;
* `readTokens_append`   the tokens of two texts, the first of which ends with a line;
* `readTokens_marker`   a marker line has no token;
* `chunks_tokens`       the tokens of a source.
-/

namespace Voisu.Hyprland
open Lib

section
variable {chars rest : Text} (more : Text)

theorem moreDigits_append (h : chars.drop (moreDigits chars).length ≠ []) :
    moreDigits (chars ++ more) = moreDigits chars := by
  unfold moreDigits at h ⊢
  match chars with
  | [] => exact absurd rfl h
  | [c] =>
    cases hc : isAsciiDigit c with
    | true =>
      rw [List.take_of_length_le (by simp), List.takeWhile_cons_of_pos hc] at h
      exact absurd rfl h
    | false =>
      rw [List.singleton_append, List.take_succ_cons, List.take_succ_cons,
        List.takeWhile_cons_of_neg (by simp [hc]), List.takeWhile_cons_of_neg (by simp [hc])]
  | c :: d :: chars => rfl

theorem readUnicodeEscape_append {value : Text} (h : readUnicodeEscape chars = .ok (value, rest)) :
    readUnicodeEscape (chars ++ more) = .ok (value, rest ++ more) := by
  unfold readUnicodeEscape at h
  split at h
  · rename_i digits
    split at h
    · rename_i rest' hclose
      split at h
      · rename_i c hcode
        cases h
        have hne : digits.dropWhile isAsciiHexdigit ≠ [] := by
          rw [hclose]
          exact List.cons_ne_nil _ _
        obtain ⟨hdrop, htake⟩ := while_append hne more
        unfold readUnicodeEscape
        simp only [List.cons_append, hdrop, htake, hclose, hcode]
      · cases h
    · cases h
    · cases h
  · cases h

theorem readHexEscape_append {value : Text} (h : readHexEscape chars = .ok (value, rest)) :
    readHexEscape (chars ++ more) = .ok (value, rest ++ more) := by
  unfold readHexEscape at h
  split at h
  · split at h
    · rename_i hhex
      cases h
      unfold readHexEscape
      exact if_pos hhex
    · cases h
  · cases h

theorem readDecimalEscape_append {c : Char} {value : Text}
    (h : readDecimalEscape c chars = .ok (value, rest)) (hne : rest ≠ []) :
    readDecimalEscape c (chars ++ more) = .ok (value, rest ++ more) := by
  unfold readDecimalEscape at h
  split at h
  · rename_i hbyte
    cases h
    have hlen : (moreDigits chars).length ≤ chars.length := by
      by_contra hlt
      exact hne (List.drop_eq_nil_of_le (by omega))
    unfold readDecimalEscape
    rw [moreDigits_append more hne, if_pos hbyte, List.drop_append_of_le_length hlen]
  · cases h

theorem readLuaEscape_digit {c : Char} (h : isAsciiDigit c = true) (chars : Text) :
    readLuaEscape (c :: chars) = readDecimalEscape c chars := by
  unfold readLuaEscape
  split
  case h_17 heq =>
    cases heq
    exact if_pos h
  case h_1 heq => cases heq
  all_goals
    rename_i heq
    cases heq
    exact absurd h (by decide)

/-- an escape within a text that goes on -/
theorem readLuaEscape_append {value : Text} (h : readLuaEscape chars = .ok (value, rest))
    (hne : rest ≠ []) : readLuaEscape (chars ++ more) = .ok (value, rest ++ more) := by
  unfold readLuaEscape at h
  split at h
  case h_1 => cases h
  case h_13 chars =>
    cases h
    cases chars with
    | nil => exact absurd rfl hne
    | cons d chars =>
      by_cases hd : d = '\n'
      · subst hd
        rfl
      · have hhead : ¬ (d :: chars).head? = some '\n' := fun h => hd (Option.some.inj h)
        have hhead' : ¬ (d :: (chars ++ more)).head? = some '\n' := fun h => hd (Option.some.inj h)
        rw [if_neg hhead]
        show Except.ok (_, if (d :: (chars ++ more)).head? = some '\n' then _ else _) = _
        rw [if_neg hhead']
        rfl
  case h_14 chars =>
    cases h
    show Except.ok (_, (chars ++ more).dropWhile _) = _
    rw [(while_append hne more).1]
  case h_15 chars => exact readHexEscape_append more h
  case h_16 chars => exact readUnicodeEscape_append more h
  case h_17 c chars _ _ _ _ _ _ _ _ _ _ _ _ _ _ _ =>
    split at h
    · rename_i hdigit
      rw [List.cons_append, readLuaEscape_digit hdigit]
      exact readDecimalEscape_append more h hne
    · cases h
  all_goals
    cases h
    rfl

example : readLuaEscape "x41b".toList = .ok (['A'], ['b']) := by decide +kernel

theorem readLuaString_append {quote : Char} {value value' : Text} :
    readLuaString quote value chars = .ok (value', rest) →
    readLuaString quote value (chars ++ more) = .ok (value', rest ++ more) := by
  fun_induction readLuaString quote value chars with
  | case1 => rintro ⟨⟩
  | case2 => rintro ⟨⟩
  | case3 value chars escaped after hescape ih =>
    intro h
    have hne : after ≠ [] := by
      rintro rfl
      rw [readLuaString] at h
      cases h
    rw [List.cons_append, readLuaString, if_pos rfl]
    split
    · rename_i herror
      rw [readLuaEscape_append more hescape hne] at herror
      cases herror
    · rename_i hok
      rw [readLuaEscape_append more hescape hne] at hok
      cases hok
      exact ih h
  | case4 value chars hne =>
    intro h
    cases h
    rw [List.cons_append, readLuaString, if_neg hne, if_pos rfl]
  | case5 => rintro ⟨⟩
  | case6 value c chars hescape hquote hbreak ih =>
    intro h
    rw [List.cons_append, readLuaString, if_neg hescape, if_neg hquote, if_neg hbreak]
    exact ih h

theorem skipLongBracket_append {closing tail : Text}
    (h : skipLongBracket closing tail chars = .ok rest) :
    skipLongBracket closing tail (chars ++ more) = .ok (rest ++ more) := by
  induction chars generalizing tail with
  | nil => cases h
  | cons c chars ih =>
    rw [skipLongBracket] at h
    rw [List.cons_append, skipLongBracket]
    split at h
    · rename_i hend
      cases h
      rw [if_pos hend]
    · rename_i hend
      rw [if_neg hend]
      exact ih h

theorem longPiece_append {equals : Nat} {piece : Piece} (h : longPiece equals chars = .ok (piece, rest)) :
    longPiece equals (chars ++ more) = .ok (piece, rest ++ more) := by
  unfold longPiece at h
  split at h
  · rename_i hskip
    cases h
    unfold longPiece
    rw [skipLongBracket_append more hskip]
  · cases h

theorem opensComment_append (reading : Reading) (h : EndsLine chars) :
    opensComment reading (chars ++ more) =
      (opensComment reading chars).map fun p => (p.1, p.2 ++ more) := by
  cases reading with
  | lexed => exact takeLongBracketOpen_append more h
  | scanned => exact longBracketOpen_append more h

theorem commentPiece_append {reading : Reading} {piece : Piece} (hline : EndsLine chars)
    (h : commentPiece reading chars = .ok (piece, rest)) :
    commentPiece reading (chars ++ more) = .ok (piece, rest ++ more) := by
  unfold commentPiece at h ⊢
  rw [opensComment_append more reading hline]
  cases hopen : opensComment reading chars with
  | some opened =>
    rw [hopen] at h
    exact longPiece_append more h
  | none =>
    rw [hopen] at h
    cases h
    have hne : chars.dropWhile (· != '\n') ≠ [] := hline.dropWhile_ne_nil rfl
    show Except.ok (_, ((chars ++ more).dropWhile _).tail) = _
    rw [(while_append hne more).1, List.tail_append_of_ne_nil hne]

/-- a piece of a text that ends with a line is a piece of every longer text -/
theorem lexPiece_append {reading : Reading} {c : Char} {piece : Piece} (hline : EndsLine (c :: chars))
    (h : lexPiece reading c chars = .ok (piece, rest)) :
    lexPiece reading c (chars ++ more) = .ok (piece, rest ++ more) := by
  unfold lexPiece at h ⊢
  by_cases hcomment : c = '-' ∧ chars.head? = some '-'
  · obtain ⟨rfl, hhead⟩ := hcomment
    cases chars with
    | nil => cases hhead
    | cons d chars =>
      cases hhead
      rw [if_pos ⟨rfl, rfl⟩] at h ⊢
      exact commentPiece_append more ((hline.tail (by decide)).tail (by decide)) h
  have hcomment' : ¬ (c = '-' ∧ (chars ++ more).head? = some '-') := by
    rintro ⟨rfl, hhead⟩
    cases chars with
    | nil => cases hline
    | cons d chars => exact hcomment ⟨rfl, hhead⟩
  rw [if_neg hcomment] at h
  rw [if_neg hcomment']
  split at h
  · rename_i hquote
    rw [if_pos hquote]
    split at h
    · rename_i hstring
      cases h
      rw [readLuaString_append more hstring]
    · cases h
  rename_i hquote
  rw [if_neg hquote]
  split at h
  · rename_i hbracket
    subst hbracket
    rw [if_pos rfl, takeLongBracketOpen_append more (hline.tail (by decide))]
    cases hopen : takeLongBracketOpen chars with
    | none =>
      rw [hopen] at h
      cases h
      rfl
    | some opened =>
      rw [hopen] at h
      exact longPiece_append more h
  rename_i hbracket
  rw [if_neg hbracket]
  split at h
  · rename_i hstart
    rw [if_pos hstart]
    cases h
    have hc : c ≠ '\n' := by
      rintro rfl
      exact absurd hstart (by decide)
    have hne : chars.dropWhile isIdentifierChar ≠ [] := (hline.tail hc).dropWhile_ne_nil (by decide)
    rw [(while_append hne more).1, (while_append hne more).2]
  rename_i hstart
  rw [if_neg hstart]
  split at h
  · rename_i hdigit
    rw [if_pos hdigit]
    cases h
    have hc : c ≠ '\n' := by
      rintro rfl
      exact absurd hdigit (by decide)
    have hne : chars.dropWhile isAsciiDigit ≠ [] := (hline.tail hc).dropWhile_ne_nil (by decide)
    rw [(while_append hne more).1, (while_append hne more).2]
  rename_i hdigit
  rw [if_neg hdigit]
  split at h
  · rename_i hsymbol
    rw [if_pos hsymbol]
    cases h
    rfl
  · rename_i hsymbol
    rw [if_neg hsymbol]
    cases h
    rfl

end

/-! ## tokens -/

section
variable {reading : Reading}

theorem readTokens_nil (reading : Reading) : readTokens reading [] = .ok [] := by
  unfold readTokens
  rw [lexPieces]
  rfl

/-- the token of a piece, before those of the rest -/
theorem readTokens_cons {c : Char} {chars rest : Text} {piece : Piece}
    (h : lexPiece reading c chars = .ok (piece, rest)) :
    readTokens reading (c :: chars) =
      match readTokens reading rest with
      | .ok tokens => .ok (piece.token?.toList ++ tokens)
      | .error e => .error e := by
  unfold readTokens
  rw [lexPieces_cons h]
  cases lexPieces reading rest with
  | error e => rfl
  | ok pieces =>
    show Except.ok (tokensOf ((piece, _) :: pieces)) = Except.ok (piece.token?.toList ++ tokensOf pieces)
    unfold tokensOf
    rw [List.filterMap_cons]
    cases piece.token? <;> rfl

theorem readTokens_ok {c : Char} {chars : Text} {tokens : List LuaToken}
    (h : readTokens reading (c :: chars) = .ok tokens) :
    ∃ piece rest after, lexPiece reading c chars = .ok (piece, rest) ∧
      readTokens reading rest = .ok after ∧ tokens = piece.token?.toList ++ after := by
  cases hpiece : lexPiece reading c chars with
  | error e =>
    have herror : lexPieces reading (c :: chars) = .error e := by
      rw [lexPieces]
      split
      · rename_i h'
        rw [hpiece] at h'
        cases h'
        rfl
      · rename_i h'
        rw [hpiece] at h'
        cases h'
    unfold readTokens at h
    rw [herror] at h
    cases h
  | ok p =>
    obtain ⟨piece, rest⟩ := p
    rw [readTokens_cons hpiece] at h
    cases hrest : readTokens reading rest with
    | error e =>
      rw [hrest] at h
      cases h
    | ok after =>
      rw [hrest] at h
      cases h
      exact ⟨piece, rest, after, rfl, hrest, rfl⟩

/-- the tokens of two texts, the first of which ends with a line -/
theorem readTokens_append {chars more : Text} {tokens tokens' : List LuaToken}
    (hline : chars = [] ∨ EndsLine chars) (h : readTokens reading chars = .ok tokens)
    (hmore : readTokens reading more = .ok tokens') :
    readTokens reading (chars ++ more) = .ok (tokens ++ tokens') := by
  induction hn : chars.length using Nat.strongRecOn generalizing chars tokens with
  | ind n ih =>
    cases chars with
    | nil =>
      rw [readTokens_nil] at h
      cases h
      exact hmore
    | cons c chars =>
      rcases hline with hline | hline
      · cases hline
      obtain ⟨piece, rest, after, hpiece, hrest, rfl⟩ := readTokens_ok h
      have hsuffix := lexPiece_suffix hpiece
      have hlt : rest.length < n := by
        have := hsuffix.length_le
        rw [← hn, List.length_cons]
        omega
      have hend := hline.of_suffix (hsuffix.trans (List.suffix_cons _ _))
      rw [List.cons_append, readTokens_cons (lexPiece_append more hline hpiece), ih _ hlt hend hrest rfl,
        List.append_assoc]

/-! ## markers -/

theorem not_isAsciiAlphanumeric {c : Char} (h : isWhitespace c = true) : isAsciiAlphanumeric c = false := by
  unfold isWhitespace at h
  simp only [inRange, Bool.or_eq_true, Bool.and_eq_true, decide_eq_true_eq, beq_iff_eq] at h
  unfold isAsciiAlphanumeric isAsciiAlphabetic isAsciiUppercase isAsciiLowercase isAsciiDigit
  simp only [inRange, Bool.or_eq_false_iff, Bool.and_eq_false_iff, decide_eq_false_iff_not]
  omega

theorem lexPiece_whitespace {c : Char} (h : isWhitespace c = true) (chars : Text) :
    lexPiece reading c chars = .ok (.other, chars) := by
  have hne : ∀ d, isWhitespace d = false → c ≠ d := by
    rintro d hd rfl
    rw [h] at hd
    cases hd
  have hword := not_isAsciiAlphanumeric h
  unfold isAsciiAlphanumeric at hword
  rw [Bool.or_eq_false_iff] at hword
  have hstart : isIdentifierStart c = false := by
    unfold isIdentifierStart
    rw [hword.1, Bool.false_or]
    exact beq_eq_false_iff_ne.mpr (hne '_' (by decide))
  have hsymbol : c ∉ symbols := fun hmem => by
    have : ∀ d ∈ symbols, isWhitespace d = false := by decide
    exact hne c (this c hmem) rfl
  unfold lexPiece
  rw [if_neg fun h => hne '-' (by decide) h.1, if_neg, if_neg (hne '[' (by decide)), hstart, hword.2,
    if_neg Bool.false_ne_true, if_neg Bool.false_ne_true, if_neg hsymbol]
  rintro (h | h)
  · exact hne '"' (by decide) h
  · exact hne '\'' (by decide) h

/-- whitespace has no token -/
theorem readTokens_skip {skipped : Text} (h : ∀ c ∈ skipped, isWhitespace c = true) (chars : Text) :
    readTokens reading (skipped ++ chars) = readTokens reading chars := by
  induction skipped with
  | nil => rfl
  | cons c skipped ih =>
    rw [List.cons_append, readTokens_cons (lexPiece_whitespace (h c List.mem_cons_self) _), ih fun d hd => h d (List.mem_cons_of_mem _ hd)]
    cases readTokens reading chars <;> rfl

/-- a line: no break but the one at its end, if any -/
inductive Line : Text → Text → Prop
  | last {line : Text} (h : '\n' ∉ line) : Line line []
  | broken {line : Text} (h : '\n' ∉ line) (more : Text) : Line (line ++ ['\n']) more

theorem Line.comment {before line more : Text} (h : Line (before ++ line) more) (hne : line ≠ []) :
    ((line ++ more).dropWhile (· != '\n')).tail = more := by
  have hpass : ∀ {x : Text}, '\n' ∉ x → ∀ c ∈ x, (c != '\n') = true := by
    intro x hx c hc
    rw [bne_iff_ne]
    rintro rfl
    exact hx hc
  generalize hall : before ++ line = all at h
  cases h with
  | last h =>
    subst hall
    have hline : '\n' ∉ line := fun hmem => h (List.mem_append_right _ hmem)
    rw [List.dropWhile_append_of_pos (hpass hline)]
    rfl
  | broken h =>
    obtain ⟨y, d, rfl⟩ : ∃ y d, line = y ++ [d] :=
      ⟨_, _, (List.dropLast_append_getLast hne).symm⟩
    rw [← List.append_assoc] at hall
    obtain ⟨rfl, hd⟩ := List.append_inj' hall rfl
    cases hd
    have hline : '\n' ∉ y := fun hmem => h (List.mem_append_right _ hmem)
    rw [List.append_assoc, List.dropWhile_append_of_pos (hpass hline)]
    rfl

/-- a marker is a comment -/
theorem readTokens_marker {marker line more : Text} (hmarker : ∃ name, marker = '-' :: '-' :: ' ' :: name)
    (htrim : trim line = marker) (h : Line line more) :
    readTokens reading (line ++ more) = readTokens reading more := by
  obtain ⟨name, rfl⟩ := hmarker
  obtain ⟨g, g', hline, hg, -⟩ := trimMatches_split isWhitespace line
  rw [show trimMatches isWhitespace line = _ from htrim] at hline
  have hsplit : line = (g ++ ['-', '-']) ++ (' ' :: name ++ g') := by
    rw [hline]
    simp
  rw [hsplit] at h
  have hopen : ∀ chars, opensComment reading (' ' :: chars) = none := by
    intro chars
    cases reading <;> rfl
  have hpiece : lexPiece reading '-' ('-' :: (' ' :: name ++ g' ++ more)) = .ok (.lineComment, more) := by
    unfold lexPiece
    rw [if_pos ⟨rfl, rfl⟩]
    unfold commentPiece
    rw [List.tail_cons, List.cons_append, List.cons_append, hopen]
    show Except.ok (Piece.lineComment, ((' ' :: name ++ g' ++ more).dropWhile _).tail) = _
    rw [h.comment (by simp)]
  have htext : line ++ more = g ++ ('-' :: '-' :: (' ' :: name ++ g' ++ more)) := by
    rw [hsplit]
    simp
  rw [htext, readTokens_skip (List.all_eq_true.mp hg), readTokens_cons hpiece]
  cases readTokens reading more <;> rfl

/-! ## lines and chunks -/

/-- lines, of which the last may lack its break -/
inductive Lines : List Text → Prop
  | nil : Lines []
  | cons {line : Text} {lines : List Text} (h : Line line lines.flatten)
      (hlast : lines ≠ [] → EndsLine line) (hlines : Lines lines) : Lines (line :: lines)

theorem splitInclusiveFrom_lines {line : Text} (hline : '\n' ∉ line) (chars : Text) :
    Lines (splitInclusiveFrom line chars) ∧ (splitInclusiveFrom line chars).flatten = line ++ chars := by
  induction chars generalizing line with
  | nil =>
    rw [splitInclusiveFrom, List.append_nil]
    split
    · rename_i hempty
      rw [List.isEmpty_iff.mp hempty]
      exact ⟨.nil, rfl⟩
    · exact ⟨.cons (.last hline) (fun h => absurd rfl h) .nil, List.append_nil _⟩
  | cons c chars ih =>
    rw [splitInclusiveFrom]
    split
    · rename_i hc
      subst hc
      have hnil : '\n' ∉ ([] : Text) := List.not_mem_nil
      obtain ⟨hlines, hflatten⟩ := ih hnil
      refine ⟨.cons (.broken hline _) (fun _ => endsLine_concat line) hlines, ?_⟩
      rw [List.flatten_cons, hflatten]
      simp
    · rename_i hc
      have hline' : '\n' ∉ line ++ [c] := by
        rw [List.mem_append, List.mem_singleton]
        rintro (h | h)
        · exact hline h
        · exact hc h.symm
      obtain ⟨hlines, hflatten⟩ := ih hline'
      exact ⟨hlines, by rw [hflatten, List.append_assoc]; rfl⟩

theorem EndsLine.append {chars line : Text} (h : EndsLine line) : EndsLine (chars ++ line) := by
  unfold EndsLine at h ⊢
  rw [List.getLast?_append_of_ne_nil _ (EndsLine.ne_nil h), h]

theorem markerForLine_marker {mode : LuaSourceMode} {line : Text} {m : LuaMarker}
    (h : mode.markerForLine line = some m) : ∃ marker, trim line = marker ∧
      ∃ name, marker = '-' :: '-' :: ' ' :: name := by
  unfold LuaSourceMode.markerForLine at h
  split at h
  · cases h
  split at h
  · rename_i htrim
    exact ⟨_, htrim, _, rfl⟩
  split at h
  · rename_i htrim
    exact ⟨_, htrim, _, rfl⟩
  · cases h

/-- **the tokens of a source are those of its chunks** -/
theorem chunks_tokens {mode : LuaSourceMode} {managed : Bool} {chunk : Text} {lines : List Text}
    {chunks : List (Text × Bool)} {tokens : List (List LuaToken)} (hlines : Lines lines)
    (hchunk : lines ≠ [] → chunk = [] ∨ EndsLine chunk)
    (h : splitChunksFrom mode managed chunk lines = .ok chunks)
    (htokens : List.Forall₂ (fun c ts => readTokens reading c.1 = .ok ts) chunks tokens) :
    readTokens reading (chunk ++ lines.flatten) = .ok tokens.flatten := by
  induction lines generalizing mode managed chunk chunks tokens with
  | nil =>
    rw [splitChunksFrom] at h
    split at h
    · cases h
    · cases h
      cases htokens with
      | cons hts htss =>
        cases htss
        rw [List.flatten_nil, List.append_nil, List.flatten_cons, List.flatten_nil, List.append_nil]
        exact hts
  | cons line lines ih =>
    cases hlines with
    | cons hline hlast hlines =>
      -- the chunk so far, then the marker, then the chunks behind it
      have hmarked : ∀ {m managed'}, mode.markerForLine line = some m → ∀ {managed''},
          (splitChunksFrom (mode.consume line) managed' [] lines).map
            (fun chunks => (chunk, managed'') :: chunks) = .ok chunks →
          readTokens reading (chunk ++ (line ++ lines.flatten)) = .ok tokens.flatten := by
        intro m managed' hmarker managed'' hchunks
        cases hrest : splitChunksFrom (mode.consume line) managed' [] lines with
        | error e =>
          rw [hrest] at hchunks
          cases hchunks
        | ok rest =>
          rw [hrest] at hchunks
          cases hchunks
          cases htokens with
          | cons hts htss =>
            obtain ⟨marker, htrim, hname⟩ := markerForLine_marker hmarker
            have hmore := ih hlines (fun _ => .inl rfl) hrest htss
            rw [List.nil_append, ← readTokens_marker hname htrim hline] at hmore
            exact readTokens_append (hchunk (List.cons_ne_nil _ _)) hts hmore
      rw [List.flatten_cons]
      unfold splitChunksFrom at h
      split at h
      · cases h
      · rename_i hmarker
        exact hmarked hmarker h
      · cases h
      · rename_i hmarker
        exact hmarked hmarker h
      · rw [← List.append_assoc]
        exact ih hlines (fun hne => .inr (hlast hne).append) h htokens

end

end Voisu.Hyprland
