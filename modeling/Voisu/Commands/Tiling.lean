import Voisu.Commands.Match

/-!
# The events tile the transcript

* `recognised`      the escapes and commands that the loop of the parser recognises, in order;
* `Trace`           their ranges follow one another on boundaries of the transcript;
* `parseFormattingCommands_tiles`   the events are ordered and disjoint, they cover the transcript
                    but for the escape words, and their rendering is the splice of the recognised
                    rewrites into the transcript.
-/

set_option linter.unusedSectionVars false

namespace Voisu.Commands
open Lib

/-! ## the recognitions of a run -/

inductive Recognition where
  | escape (esc : EscapeMatch)
  | command (m : CommandMatch)

/-- what the loop recognises from token `i` on, in order -/
def recognisedFrom (source : Text) (tokens : List Token) (i : Nat) : List Recognition :=
  if i < tokens.length then
    match hesc : tryLiteralEscape source tokens i with
    | some esc => .escape esc :: recognisedFrom source tokens esc.nextIndex
    | none =>
      match hm : tryCommandMatch source tokens i with
      | some m => .command m :: recognisedFrom source tokens m.nextIndex
      | none => recognisedFrom source tokens (i + 1)
  else []
termination_by tokens.length - i
decreasing_by
  · have := tryLiteralEscape_lt hesc
    omega
  · have := tryCommandMatch_lt hm
    omega
  · omega

def recognised (source : Text) : List Recognition := recognisedFrom source (tokenize source) 0

/-- the events of a list of recognitions -/
def eventsOf (source : Text) (ordinaryStart : Nat) : List Recognition → ParsedCommands
  | [] => { events := flushOrdinary source ordinaryStart (byteLen source), commandSpans := [] }
  | .escape esc :: rs =>
    let rest := eventsOf source esc.residualSpan.stop rs
    { events := flushOrdinary source ordinaryStart esc.literalSpan.start ++
        .text (textAt source esc.residualSpan) esc.residualSpan :: rest.events
      commandSpans := rest.commandSpans }
  | .command m :: rs =>
    let rest := eventsOf source m.replaceSpan.stop rs
    { events := flushOrdinary source ordinaryStart m.replaceSpan.start ++
        .command m.kind m.replaceSpan m.render :: rest.events
      commandSpans := m.commandSpan :: rest.commandSpans }

section
variable {source : Text} {tokens : List Token} {i : Nat} (hi : i < tokens.length)
include hi

theorem recognisedFrom_escape {esc : EscapeMatch}
    (hesc : tryLiteralEscape source tokens i = some esc) :
    recognisedFrom source tokens i = .escape esc :: recognisedFrom source tokens esc.nextIndex := by
  rw [recognisedFrom, if_pos hi]
  split <;> simp_all

theorem recognisedFrom_command {m : CommandMatch}
    (hesc : tryLiteralEscape source tokens i = none)
    (hm : tryCommandMatch source tokens i = some m) :
    recognisedFrom source tokens i = .command m :: recognisedFrom source tokens m.nextIndex := by
  rw [recognisedFrom, if_pos hi]
  split <;> simp_all
  split <;> simp_all

theorem recognisedFrom_ordinary (hesc : tryLiteralEscape source tokens i = none)
    (hm : tryCommandMatch source tokens i = none) :
    recognisedFrom source tokens i = recognisedFrom source tokens (i + 1) := by
  rw [recognisedFrom, if_pos hi]
  split <;> simp_all
  split <;> simp_all

end

theorem parseLoop_eq (source : Text) (tokens : List Token) (i o : Nat) :
    parseLoop source tokens i o = eventsOf source o (recognisedFrom source tokens i) := by
  induction i, o using parseLoop.induct source tokens with
  | case1 i o hi esc hesc ih =>
    rw [recognisedFrom_escape hi hesc, parseLoop, if_pos hi, eventsOf]
    split <;> simp_all
  | case2 i o hi hesc m hm ih =>
    rw [recognisedFrom_command hi hesc hm, parseLoop, if_pos hi, eventsOf]
    split <;> simp_all
    split <;> simp_all
  | case3 i o hi hesc hm ih =>
    rw [recognisedFrom_ordinary hi hesc hm, parseLoop, if_pos hi]
    split <;> simp_all
    split <;> simp_all
  | case4 i o hi =>
    rw [parseLoop, recognisedFrom, if_neg hi, if_neg hi]
    rfl

/-- the ranges of the recognitions follow one another from the boundary `o` on -/
inductive Trace (source : Text) : Nat → List Recognition → Prop
  | nil {o : Nat} (hb : isBoundary o source = true) : Trace source o []
  | escape {o j : Nat} {esc : EscapeMatch} {rs : List Recognition}
      (hesc : tryLiteralEscape source (tokenize source) j = some esc)
      (hb : isBoundary o source = true) (ho : o ≤ esc.literalSpan.start)
      (hb1 : isBoundary esc.literalSpan.start source = true)
      (hlt : esc.literalSpan.start < esc.residualSpan.start)
      (hb2 : isBoundary esc.residualSpan.start source = true)
      (hr : esc.residualSpan.start < esc.residualSpan.stop)
      (h : Trace source esc.residualSpan.stop rs) : Trace source o (.escape esc :: rs)
  | command {o j : Nat} {m : CommandMatch} {rs : List Recognition}
      (hm : tryCommandMatch source (tokenize source) j = some m)
      (hb : isBoundary o source = true) (ho : o ≤ m.replaceSpan.start)
      (hb1 : isBoundary m.replaceSpan.start source = true)
      (hr : m.replaceSpan.start < m.replaceSpan.stop)
      (hin : m.replaceSpan.start ≤ m.commandSpan.start ∧
        m.commandSpan.stop ≤ m.replaceSpan.stop)
      (h : Trace source m.replaceSpan.stop rs) : Trace source o (.command m :: rs)

section
variable {source : Text} {i o : Nat} {m : CommandMatch} {esc : EscapeMatch}

theorem Trace.boundary {rs : List Recognition} (h : Trace source o rs) :
    isBoundary o source = true := by
  cases h with
  | nil hb => exact hb
  | escape _ hb => exact hb
  | command _ hb => exact hb

/-- pending text may start at `o` when the loop stands at token `i` -/
structure Pending (source : Text) (i o : Nat) : Prop where
  boundary : isBoundary o source = true
  le : i < (tokenize source).length → o ≤ (spanAt (tokenize source) i).start
  lead : i < (tokenize source).length → claimsLeading source i = true →
    o ≤ leadEdge (tokenize source) i

theorem Pending.zero (source : Text) : Pending source 0 0 :=
  ⟨isBoundary_iff.mpr ⟨[], source, rfl, rfl⟩, fun _ => Nat.zero_le _, fun _ _ => Nat.zero_le _⟩

/-- the text that ends with token `i` may be followed by any command -/
theorem Pending.after (hi : i < (tokenize source).length) (hb : isBoundary o source = true)
    (ho : o ≤ (spanAt (tokenize source) i).stop) : Pending source (i + 1) o := by
  refine ⟨hb, fun h => ?_, fun h _ => by rw [leadEdge_succ]; exact ho⟩
  have := spanAt_stop_lt h
  omega

theorem Pending.ordinary (h : Pending source i o) (hi : i < (tokenize source).length) :
    Pending source (i + 1) o := by
  apply Pending.after hi h.boundary
  have h1 := h.le hi
  have h2 := spanAt_lt hi
  omega

/-- the start of the replaced range is past the pending text -/
theorem Pending.le_replace (h : Pending source i o)
    (hm : tryCommandMatch source (tokenize source) i = some m) :
    o ≤ m.replaceSpan.start ∧ m.replaceSpan.start ≤ (spanAt (tokenize source) i).start ∧
      isBoundary m.replaceSpan.start source = true := by
  have hs := tryCommandMatch_spec hm
  have hi := lowerIs_lt hs.command
  rw [hs.replaceSpan_eq, expandReplaceSpan_start hi]
  split
  · rename_i hk
    have hc : claimsLeading source i = true := by rw [claimsLeading, hm]; exact hk
    exact ⟨h.lead hi hc, leadEdge_le hi, leadEdge_boundary hi⟩
  · exact ⟨h.le hi, le_refl _, (spanAt_boundary hi).1⟩

theorem Pending.replace (hm : tryCommandMatch source (tokenize source) i = some m) :
    Pending source m.nextIndex m.replaceSpan.stop ∧ m.commandSpan.stop ≤ m.replaceSpan.stop := by
  have hs := tryCommandMatch_spec hm
  have h1 := hs.lt
  have h2 := hs.le
  have hlast : m.nextIndex - 1 < (tokenize source).length := by omega
  have hsucc : m.nextIndex - 1 + 1 = m.nextIndex := by omega
  rw [hs.commandSpan_eq, hs.replaceSpan_eq]
  have hstop := @expandReplaceSpan_stop source i (m.nextIndex - 1) m.kind
  simp only [hsucc] at hstop
  rcases hstop with h | ⟨hn, h, hle⟩ | ⟨hn, h, hcl⟩
  · rw [h]
    have := Pending.after hlast (spanAt_boundary hlast).2 (le_refl _)
    rw [hsucc] at this
    exact ⟨this, le_refl _⟩
  · rw [h]
    refine ⟨⟨?_, fun hlt => absurd hlt (by omega), fun hlt => absurd hlt (by omega)⟩, le_of_lt hle⟩
    exact isBoundary_iff.mpr ⟨source, [], by simp, rfl⟩
  · rw [h]
    refine ⟨⟨(spanAt_boundary hn).1, fun _ => le_refl _, fun _ hc => ?_⟩, ?_⟩
    · rw [hcl] at hc
      cases hc
    · have := @spanAt_stop_lt source (m.nextIndex - 1) (by omega)
      rw [hsucc] at this
      exact le_of_lt this

theorem tryLiteralEscape_spec (h : tryLiteralEscape source (tokenize source) i = some esc) :
    ∃ inner, tryCommandMatch source (tokenize source) (i + 1) = some inner ∧
      i + 1 < (tokenize source).length ∧ esc.literalSpan = spanAt (tokenize source) i ∧
      esc.residualSpan = ⟨(spanAt (tokenize source) (i + 1)).start, inner.commandSpan.stop⟩ ∧
      esc.nextIndex = inner.nextIndex := by
  unfold tryLiteralEscape at h
  split at h
  · rename_i hw
    obtain ⟨inner, hin, rfl⟩ := Option.map_eq_some_iff.mp h
    exact ⟨inner, hin, lowerIs_lt (Bool.and_eq_true_iff.mp hw).2, rfl, rfl, rfl⟩
  · cases h

/-- **the recognitions of the loop follow one another** -/
theorem recognisedFrom_trace (h : Pending source i o) :
    Trace source o (recognisedFrom source (tokenize source) i) := by
  induction i using recognisedFrom.induct source (tokenize source)
    generalizing o with
  | case1 i hi esc hesc ih =>
    obtain ⟨inner, hin, hi1, hlit, hres, hnext⟩ := tryLiteralEscape_spec hesc
    have hs := tryCommandMatch_spec hin
    have hlt := hs.lt
    have hle := hs.le
    have hlast : inner.nextIndex - 1 < (tokenize source).length := by omega
    have hstop : esc.residualSpan.stop = (spanAt (tokenize source) (inner.nextIndex - 1)).stop := by
      rw [hres, hs.commandSpan_eq]
    have hpend : Pending source esc.nextIndex esc.residualSpan.stop := by
      rw [hnext, hstop, show inner.nextIndex = inner.nextIndex - 1 + 1 by omega]
      exact Pending.after hlast (spanAt_boundary hlast).2 (le_refl _)
    rw [recognisedFrom_escape hi hesc]
    have hgap := spanAt_stop_lt hi1
    have hlit' := spanAt_lt hi
    have hr1 := spanAt_lt hi1
    have hr2 := @spanAt_stop_mono source (i + 1) (inner.nextIndex - 1) (by omega) hlast
    refine Trace.escape hesc h.boundary ?_ ?_ ?_ ?_ ?_ (ih hpend)
    · rw [hlit]; exact h.le hi
    · rw [hlit]; exact (spanAt_boundary hi).1
    · rw [hlit, hres]; show _ < (spanAt (tokenize source) (i + 1)).start; omega
    · rw [hres]; exact (spanAt_boundary hi1).1
    · rw [hstop, hres]; show (spanAt (tokenize source) (i + 1)).start < _; omega
  | case2 i hi hesc m hm ih =>
    rw [recognisedFrom_command hi hesc hm]
    have hs := tryCommandMatch_spec hm
    have hlt := hs.lt
    have hle := hs.le
    obtain ⟨h1, h2, h3⟩ := h.le_replace hm
    obtain ⟨h4, h5⟩ := Pending.replace hm
    have hcs : m.commandSpan.start = (spanAt (tokenize source) i).start := by rw [hs.commandSpan_eq]
    have hce : m.commandSpan.stop = (spanAt (tokenize source) (m.nextIndex - 1)).stop := by
      rw [hs.commandSpan_eq]
    have h6 := spanAt_lt hi
    have h7 := @spanAt_stop_mono source i (m.nextIndex - 1) (by omega) (by omega)
    exact Trace.command hm h.boundary h1 h3 (by omega) ⟨by omega, h5⟩ (ih h4)
  | case3 i hi hesc hm ih =>
    rw [recognisedFrom_ordinary hi hesc hm]
    exact ih (h.ordinary hi)
  | case4 i hi =>
    rw [recognisedFrom, if_neg hi]
    exact Trace.nil h.boundary

end

/-! ## the events of a trace -/

section
variable {source : Text} {o : Nat} {rs : List Recognition}

/-- byte `k` lies in the span -/
def SourceSpan.Has (span : SourceSpan) (k : Nat) : Prop := span.start ≤ k ∧ k < span.stop

/-- byte `k` belongs to an escape: from its word `literal` up to the command that it escapes -/
def Recognition.Escapes (k : Nat) : Recognition → Prop
  | .escape esc => esc.literalSpan.start ≤ k ∧ k < esc.residualSpan.start
  | .command _ => False

/-- the rewrite of the source that a recognition stands for -/
def Recognition.rewrite : Recognition → Repl Char
  | .escape esc => ⟨esc.literalSpan.start, esc.residualSpan.start, []⟩
  | .command m => ⟨m.replaceSpan.start, m.replaceSpan.stop, m.render⟩

/-- what holds of every event: its range is not empty, and a text event holds its source slice -/
def EventOk (source : Text) (e : CommandEvent) : Prop :=
  e.span.start < e.span.stop ∧
    match e with
    | .text t span => slice span.start span.stop source = some t
    | .command .. => True

theorem slice_textAt {a b : Nat} (hab : a ≤ b) (ha : isBoundary a source = true)
    (hb : isBoundary b source = true) : slice a b source = some (textAt source ⟨a, b⟩) := by
  obtain ⟨m, hm⟩ := slice_of_boundary hab ha hb
  rw [textAt]
  simp only [hm, Option.getD_some]

theorem flushOrdinary_ok {upTo : Nat} (ho : isBoundary o source = true)
    (hu : isBoundary upTo source = true) : ∀ e ∈ flushOrdinary source o upTo,
      EventOk source e ∧ e.span = ⟨o, upTo⟩ ∧ o < upTo := by
  intro e he
  unfold flushOrdinary at he
  split at he
  · rename_i hlt
    rw [List.mem_singleton] at he
    subst he
    exact ⟨⟨hlt, slice_textAt (le_of_lt hlt) ho hu⟩, rfl, hlt⟩
  · exact absurd he (by simp)

theorem isBoundary_le {n : Nat} (h : isBoundary n source = true) : n ≤ byteLen source := by
  obtain ⟨a, b, rfl, rfl⟩ := isBoundary_iff.mp h
  rw [byteLen_append]
  omega

theorem isBoundary_byteLen (source : Text) : isBoundary (byteLen source) source = true :=
  isBoundary_iff.mpr ⟨source, [], by simp, rfl⟩

theorem Trace.events_ok (h : Trace source o rs) : ∀ e ∈ (eventsOf source o rs).events,
    EventOk source e ∧ o ≤ e.span.start := by
  induction h with
  | nil hb =>
    intro e he
    obtain ⟨h1, h2, -⟩ := flushOrdinary_ok hb (isBoundary_byteLen source) e he
    exact ⟨h1, by rw [h2]⟩
  | escape hesc hb ho hb1 hlt hb2 hr h ih =>
    intro e he
    rcases List.mem_append.mp he with he | he
    · obtain ⟨h1, h2, -⟩ := flushOrdinary_ok hb hb1 e he
      exact ⟨h1, by rw [h2]⟩
    · rcases List.mem_cons.mp he with rfl | he
      · exact ⟨⟨hr, slice_textAt (le_of_lt hr) hb2 h.boundary⟩, by show _ ≤ _; simp only [CommandEvent.span]; omega⟩
      · obtain ⟨h1, h2⟩ := ih e he
        exact ⟨h1, by omega⟩
  | command hm hb ho hb1 hr hin h ih =>
    intro e he
    rcases List.mem_append.mp he with he | he
    · obtain ⟨h1, h2, -⟩ := flushOrdinary_ok hb hb1 e he
      exact ⟨h1, by rw [h2]⟩
    · rcases List.mem_cons.mp he with rfl | he
      · exact ⟨⟨hr, trivial⟩, ho⟩
      · obtain ⟨h1, h2⟩ := ih e he
        exact ⟨h1, by omega⟩

/-- events that end where the pending text of the rest starts come before the rest -/
theorem pairwise_flush {upTo : Nat} {e : CommandEvent} {es : List CommandEvent}
    (he : upTo ≤ e.span.start) (hlt : e.span.start < e.span.stop)
    (hes : ∀ e' ∈ es, e.span.stop ≤ e'.span.start)
    (h : es.Pairwise fun a b => a.span.stop ≤ b.span.start) :
    (flushOrdinary source o upTo ++ e :: es).Pairwise fun a b => a.span.stop ≤ b.span.start := by
  have hcons := List.pairwise_cons.mpr ⟨hes, h⟩
  unfold flushOrdinary
  split
  · refine List.pairwise_cons.mpr ⟨fun e' he' => ?_, hcons⟩
    rcases List.mem_cons.mp he' with rfl | he'
    · exact he
    · have := hes e' he'
      show upTo ≤ _
      omega
  · exact hcons

theorem Trace.events_pairwise (h : Trace source o rs) :
    (eventsOf source o rs).events.Pairwise fun a b => a.span.stop ≤ b.span.start := by
  induction h with
  | nil hb =>
    show (flushOrdinary _ _ _).Pairwise _
    unfold flushOrdinary
    split
    · exact List.pairwise_singleton _ _
    · exact List.Pairwise.nil
  | escape hesc hb ho hb1 hlt hb2 hr h ih =>
    exact pairwise_flush (le_of_lt hlt) hr (fun e he => (h.events_ok e he).2) ih
  | command hm hb ho hb1 hr hin h ih =>
    exact pairwise_flush (le_refl _) hr (fun e he => (h.events_ok e he).2) ih

theorem flushOrdinary_covers {upTo k : Nat} :
    (∃ e ∈ flushOrdinary source o upTo, e.span.Has k) ↔ o ≤ k ∧ k < upTo := by
  unfold flushOrdinary
  split
  · simp [SourceSpan.Has, CommandEvent.span]
  · simp
    omega

/-- **the events cover the source from `o` on, but for the escapes** -/
theorem Trace.covers (h : Trace source o rs) (k : Nat) :
    (∃ e ∈ (eventsOf source o rs).events, e.span.Has k) ↔
      o ≤ k ∧ k < byteLen source ∧ ∀ r ∈ rs, ¬ r.Escapes k := by
  have hsplit : ∀ (es es' : List CommandEvent), (∃ e ∈ es ++ es', e.span.Has k) ↔
      (∃ e ∈ es, e.span.Has k) ∨ ∃ e ∈ es', e.span.Has k := by
    intro es es'
    simp only [List.mem_append, or_and_right, exists_or]
  -- no escape of the rest reaches below the start of the rest
  have hlow : ∀ {o' : Nat} {rs' : List Recognition}, Trace source o' rs' → k < o' →
      ∀ r ∈ rs', ¬ r.Escapes k := by
    intro o' rs' h
    induction h with
    | nil => intro _ r hr; exact absurd hr (by simp)
    | escape hesc hb ho hb1 hlt hb2 hr h ih =>
      intro hk r hr
      rcases List.mem_cons.mp hr with rfl | hr
      · intro he
        have := he.1
        omega
      · exact ih (by omega) r hr
    | command hm hb ho hb1 hr hin h ih =>
      intro hk r hr'
      rcases List.mem_cons.mp hr' with rfl | hr'
      · exact fun he => he
      · exact ih (by omega) r hr'
  induction h with
  | nil hb =>
    show (∃ e ∈ flushOrdinary _ _ _, e.span.Has k) ↔ _
    rw [flushOrdinary_covers]
    simp
  | escape hesc hb ho hb1 hlt hb2 hr h ih =>
    have hle := isBoundary_le h.boundary
    show (∃ e ∈ flushOrdinary _ _ _ ++ _ :: _, e.span.Has k) ↔ _
    rw [hsplit, flushOrdinary_covers]
    simp only [List.mem_cons, exists_eq_or_imp, forall_eq_or_imp, ih]
    simp only [SourceSpan.Has, CommandEvent.span, Recognition.Escapes]
    constructor
    · intro hk
      rcases hk with hk | hk | hk
      · exact ⟨hk.1, by omega, by omega, hlow h (by omega)⟩
      · exact ⟨by omega, by omega, by omega, hlow h (by omega)⟩
      · exact ⟨by omega, hk.2.1, by omega, hk.2.2⟩
    · intro hk
      obtain ⟨h1, h2, h3, h4⟩ := hk
      rcases Nat.lt_or_ge k _ with hlt' | hge
      · exact Or.inl ⟨h1, hlt'⟩
      · rcases Nat.lt_or_ge k _ with hlt'' | hge'
        · exact Or.inr (Or.inl ⟨by omega, hlt''⟩)
        · exact Or.inr (Or.inr ⟨hge', h2, h4⟩)
  | command hm hb ho hb1 hr hin h ih =>
    have hle := isBoundary_le h.boundary
    show (∃ e ∈ flushOrdinary _ _ _ ++ _ :: _, e.span.Has k) ↔ _
    rw [hsplit, flushOrdinary_covers]
    simp only [List.mem_cons, exists_eq_or_imp, forall_eq_or_imp, ih]
    simp only [SourceSpan.Has, CommandEvent.span, Recognition.Escapes]
    constructor
    · intro hk
      rcases hk with hk | hk | hk
      · exact ⟨hk.1, by omega, fun he => he, hlow h (by omega)⟩
      · exact ⟨by omega, by omega, fun he => he, hlow h (by omega)⟩
      · exact ⟨by omega, hk.2.1, fun he => he, hk.2.2⟩
    · intro hk
      obtain ⟨h1, h2, -, h4⟩ := hk
      rcases Nat.lt_or_ge k _ with hlt' | hge
      · exact Or.inl ⟨h1, hlt'⟩
      · rcases Nat.lt_or_ge k _ with hlt'' | hge'
        · exact Or.inr (Or.inl ⟨hge, hlt''⟩)
        · exact Or.inr (Or.inr ⟨hge', h2, h4⟩)

/-- the source after a prefix, cut again at a later boundary -/
theorem cut_rest {p s : Text} {b : Nat} (hs : source = p ++ s) (hp : byteLen p = o) (hob : o ≤ b)
    (hb : isBoundary b source = true) :
    ∃ g s', s = g ++ s' ∧ o + byteLen g = b ∧ textAt source ⟨o, b⟩ = g ∧
      source = p ++ g ++ s' ∧ byteLen (p ++ g) = b := by
  obtain ⟨c, d, hcd, hc⟩ := isBoundary_iff.mp hb
  obtain ⟨g, rfl, hg⟩ := prefix_of_byteLen_le (hs.symm.trans hcd) (by omega)
  rw [byteLen_append] at hc
  refine ⟨g, d, hg, by omega, ?_, hcd, by rw [byteLen_append]; omega⟩
  exact textAt_eq hcd hp (by show _ = b; omega)

theorem flushOrdinary_output {upTo : Nat} (ho : o ≤ upTo) :
    (flushOrdinary source o upTo).flatMap CommandEvent.output = textAt source ⟨o, upTo⟩ := by
  unfold flushOrdinary
  split
  · simp [CommandEvent.output]
  · have he : upTo = o := by omega
    subst he
    rw [textAt]
    cases h : slice upTo upTo source with
    | none => rfl
    | some m =>
      obtain ⟨a, b, -, h1, h2⟩ := slice_eq_some.mp h
      have hm : m = [] := byteLen_eq_zero.mp (by omega)
      rw [hm]
      rfl

/-- **the rendering is the source with the recognised rewrites spliced in** -/
theorem Trace.spliced (h : Trace source o rs) {p s : Text} (hs : source = p ++ s)
    (hp : byteLen p = o) :
    Spliced o (rs.map Recognition.rewrite) s (eventsOf source o rs).renderCommandsOnly := by
  induction h generalizing p s with
  | nil hb =>
    show Spliced _ [] s ((flushOrdinary _ _ _).flatMap CommandEvent.output)
    obtain ⟨g, s', rfl, hg, htext, -, -⟩ := cut_rest hs hp (isBoundary_le hb) (isBoundary_byteLen _)
    have hs0 : s' = [] := byteLen_eq_zero.mp (by rw [hs] at hg; simp only [byteLen_append] at hg; omega)
    subst hs0
    rw [flushOrdinary_output (isBoundary_le hb), htext, List.append_nil]
    exact Spliced.nil _ _
  | @escape o j esc rs hesc hb ho hb1 hlt hb2 hr h ih =>
    obtain ⟨g, s₁, rfl, hg, htext, hs1, hp1⟩ := cut_rest hs hp ho hb1
    obtain ⟨l, s₂, rfl, hl, -, hs2, hp2⟩ := cut_rest hs1 hp1 (le_of_lt hlt) hb2
    obtain ⟨r, s₃, rfl, hr3, hres, hs3, hp3⟩ := cut_rest hs2 hp2 (le_of_lt hr) h.boundary
    have hrest := ih hs3 hp3
    rw [← hr3] at hrest
    have := Spliced.cons (r := Recognition.rewrite (.escape esc)) hg hl (hrest.prepend r)
    have hout : (eventsOf source o (.escape esc :: rs)).renderCommandsOnly =
        g ++ [] ++ (r ++ (eventsOf source esc.residualSpan.stop rs).renderCommandsOnly) := by
      unfold ParsedCommands.renderCommandsOnly
      rw [eventsOf]
      simp only [List.flatMap_append, List.flatMap_cons]
      rw [flushOrdinary_output ho, htext, CommandEvent.output, hres]
      simp
    rw [hout, ← List.append_assoc, List.map_cons, ← hr3]
    simpa [Recognition.rewrite] using this
  | @command o j m rs hm hb ho hb1 hr hin h ih =>
    obtain ⟨g, s₁, rfl, hg, htext, hs1, hp1⟩ := cut_rest hs hp ho hb1
    obtain ⟨l, s₂, rfl, hl, -, hs2, hp2⟩ := cut_rest hs1 hp1 (le_of_lt hr) h.boundary
    have := Spliced.cons (r := Recognition.rewrite (.command m)) hg hl (ih hs2 hp2)
    have hout : (eventsOf source o (.command m :: rs)).renderCommandsOnly =
        g ++ m.render ++ (eventsOf source m.replaceSpan.stop rs).renderCommandsOnly := by
      unfold ParsedCommands.renderCommandsOnly
      rw [eventsOf]
      simp only [List.flatMap_append, List.flatMap_cons]
      rw [flushOrdinary_output ho, htext, CommandEvent.output, List.append_assoc]
    rw [hout, ← List.append_assoc]
    exact this

def CommandEvent.isCommand : CommandEvent → Bool
  | .text .. => false
  | .command .. => true

/-- the command span of each command lies inside the span of its event -/
theorem Trace.commandSpans (h : Trace source o rs) :
    List.Forall₂ (fun (c : SourceSpan) (e : CommandEvent) =>
        e.span.start ≤ c.start ∧ c.stop ≤ e.span.stop)
      (eventsOf source o rs).commandSpans
      ((eventsOf source o rs).events.filter CommandEvent.isCommand) := by
  have hflush : ∀ a b : Nat, (flushOrdinary source a b).filter CommandEvent.isCommand = [] := by
    intro a b
    unfold flushOrdinary
    split <;> rfl
  induction h with
  | nil hb =>
    rw [eventsOf, hflush]
    exact List.Forall₂.nil
  | escape hesc hb ho hb1 hlt hb2 hr h ih =>
    rw [eventsOf]
    simp only [List.filter_append, hflush]
    exact ih
  | command hm hb ho hb1 hr hin h ih =>
    rw [eventsOf]
    simp only [List.filter_append, hflush]
    exact List.Forall₂.cons hin ih

end

/-! ## the parser -/

section
variable (source : Text)

theorem recognised_trace : Trace source 0 (recognised source) :=
  recognisedFrom_trace (Pending.zero source)

theorem parseFormattingCommands_eq :
    parseFormattingCommands source = eventsOf source 0 (recognised source) := by
  have hok := (recognised_trace source).events_ok
  have hfilter : (eventsOf source 0 (recognised source)).events.filter
      (fun e => !e.isEmptyText) = (eventsOf source 0 (recognised source)).events := by
    rw [List.filter_eq_self]
    intro e he
    obtain ⟨⟨hlt, hsl⟩, -⟩ := hok e he
    cases e with
    | command => rfl
    | text t span =>
      cases t with
      | cons => rfl
      | nil =>
        obtain ⟨a, b, -, h1, h2⟩ := slice_eq_some.mp hsl
        simp only [CommandEvent.span] at hlt
        simp at h2
        omega
  unfold parseFormattingCommands
  simp only
  split
  · rename_i hn
    have htok : tokenize source = [] := by simpa using hn
    have hrec : recognised source = [] := by
      rw [recognised, recognisedFrom, htok]
      rfl
    rw [hrec, eventsOf, flushOrdinary]
    cases source with
    | nil => rfl
    | cons c s =>
      have hpos : 0 < byteLen (c :: s) := byteLen_pos (by simp)
      rw [if_neg (by simp), if_pos hpos, @textAt_eq _ [] (c :: s) [] (by simp) _ rfl (by simp)]
  · rw [parseLoop_eq]
    show ParsedCommands.mk (List.filter _ (eventsOf source 0 (recognised source)).events) _ = _
    rw [hfilter]
    rfl

/-- where nothing is recognised the rendering is the transcript -/
theorem parse_of_none {source : Text} (h : recognised source = []) :
    (parseFormattingCommands source).commandSpans = [] ∧
      (parseFormattingCommands source).renderCommandsOnly = source := by
  have hspl := (recognised_trace source).spliced (List.nil_append source).symm rfl
  rw [parseFormattingCommands_eq]
  rw [h] at hspl ⊢
  exact ⟨rfl, hspl.unique (Spliced.nil 0 source)⟩

/-- no word of the transcript introduces a command -/
theorem recognised_of_no_command {source : Text}
    (h : (tokenize source).all (fun tok => tok.lower != "command".toList) = true) :
    recognised source = [] := by
  have hnone (i : Nat) : lowerIs (tokenize source) i "command" = false := by
    unfold lowerIs
    cases htok : (tokenize source)[i]? with
    | none => rfl
    | some tok => simpa using List.all_eq_true.mp h tok (List.mem_of_getElem? htok)
  have hloop (i : Nat) : recognisedFrom source (tokenize source) i = [] := by
    induction i using recognisedFrom.induct source (tokenize source) with
    | case1 i hi esc hesc ih =>
      rw [tryLiteralEscape, hnone, Bool.and_false, if_neg Bool.false_ne_true] at hesc
      cases hesc
    | case2 i hi hesc m hm ih =>
      rw [tryCommandMatch, hnone, if_neg Bool.false_ne_true] at hm
      cases hm
    | case3 i hi hesc hm ih => rw [recognisedFrom_ordinary hi hesc hm, ih]
    | case4 i hi => rw [recognisedFrom, if_neg hi]
  exact hloop 0

/-- **the events tile the transcript; the rendering splices the recognised rewrites into it** -/
theorem parseFormattingCommands_tiles :
    (∀ e ∈ (parseFormattingCommands source).events, EventOk source e) ∧
    ((parseFormattingCommands source).events.Pairwise fun a b => a.span.stop ≤ b.span.start) ∧
    (∀ k, (∃ e ∈ (parseFormattingCommands source).events, e.span.Has k) ↔
      k < byteLen source ∧ ∀ r ∈ recognised source, ¬ r.Escapes k) ∧
    List.Forall₂ (fun (c : SourceSpan) (e : CommandEvent) =>
        e.span.start ≤ c.start ∧ c.stop ≤ e.span.stop)
      (parseFormattingCommands source).commandSpans
      ((parseFormattingCommands source).events.filter CommandEvent.isCommand) ∧
    Spliced 0 ((recognised source).map Recognition.rewrite) source
      (parseFormattingCommands source).renderCommandsOnly ∧
    (recognised source = [] → (parseFormattingCommands source).renderCommandsOnly = source) := by
  have h := recognised_trace source
  have hspl := h.spliced (List.nil_append source).symm rfl
  simp only [parseFormattingCommands_eq]
  refine ⟨fun e he => (h.events_ok e he).1, h.events_pairwise, fun k => ?_, h.commandSpans, hspl,
    fun hrec => ?_⟩
  · rw [h.covers]
    simp
  · rw [hrec] at hspl ⊢
    exact hspl.unique (Spliced.nil 0 source)

end

end Voisu.Commands
