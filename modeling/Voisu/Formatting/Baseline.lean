import Mathlib
import Voisu.Fingerprint
import Voisu.Formatting.Anchors
import Voisu.Formatting.Smart

/-!
# The sealed baseline

What the formatter hands on: the rendered text with the anchors from the words of the transcript, the
ranges of the transcript that no edit may touch, and a digest of all of it.

* `sealedText`                     the formatted text, unless a check of the deadline or the size gate
                                   stops it;
* `formatValidatedForGrammar`      the baseline; where nothing is sealed it is the transcript itself,
                                   with all of it protected;
* `holdsByteOf`                    a word of the rendering holds a byte of a range of the transcript.
-/

namespace Voisu.Formatting
open Lib Commands

def formatterContractId : Text := "voisu-local-formatting-v1:#99-approved".toList

structure FormattingBaseline where
  baseVersion : Text
  baseFingerprint : Text
  rendered : Text
  /-- the range of a word of the transcript, and its range in the rendering -/
  anchors : List (SourceSpan × SourceSpan)
  protectedSourceRanges : List SourceSpan
  formatterContract : Text
  derivationDigest : Text
deriving DecidableEq, Repr

/-- the libraries that a seal uses: the digest of a text, and the canonical JSON of what is sealed -/
structure Sealer where
  digest : Digest
  canonical : FormattingBaseline → Text

def derivationDigestOf (sealer : Sealer) (baseline : FormattingBaseline) : Text :=
  textSha256Fingerprint sealer.digest (sealer.canonical { baseline with derivationDigest := [] })

def FormattingBaseline.verifyDerivationDigest (sealer : Sealer) (baseline : FormattingBaseline) :
    Bool := baseline.derivationDigest == derivationDigestOf sealer baseline

def FormattingBaseline.anchorForSource (baseline : FormattingBaseline) (span : SourceSpan) :
    Option SourceSpan := (baseline.anchors.find? fun entry => entry.1 == span).map Prod.snd

def sealBaseline (sealer : Sealer) (source version rendered : Text)
    (anchors : List (SourceSpan × SourceSpan)) (ranges : List SourceSpan) : FormattingBaseline :=
  let baseline : FormattingBaseline :=
    { baseVersion := version
      baseFingerprint := textSha256Fingerprint sealer.digest source
      rendered
      anchors
      protectedSourceRanges := ranges
      formatterContract := formatterContractId
      derivationDigest := [] }
  { baseline with derivationDigest := derivationDigestOf sealer baseline }

/-! ## the baseline of a transcript -/

/-- `late k` is the answer of the `k`-th check of the deadline, as in `smartRendering` -/
def sealedText (late : Nat → Bool) (source : Text) (snapshot : Snapshot) : Option Text :=
  if maxValidatedTranscriptUtf8Bytes < byteLen source || late 0 then none
  else match smartFormat late source snapshot with
    | none => none
    | some rendered => if late 4 || late 5 || late 6 || late 7 then none else some rendered

def anchorSpans (anchors : List (Token × Token)) : List (SourceSpan × SourceSpan) :=
  anchors.map fun p => (tokenSpan p.1, tokenSpan p.2)

def identitySourceAnchors (source : Text) : List (SourceSpan × SourceSpan) :=
  (wordTokens source).map fun tok => (tokenSpan tok, tokenSpan tok)

def sealIdentityBaseline (sealer : Sealer) (source version : Text) : FormattingBaseline :=
  sealBaseline sealer source version source (identitySourceAnchors source)
    (if source.isEmpty then [] else [wholeText source])

def formatValidatedForGrammar (sealer : Sealer) (late : Nat → Bool) (source version : Text)
    (snapshot : Snapshot) : FormattingBaseline :=
  match sealedText late source snapshot with
  | none => sealIdentityBaseline sealer source version
  | some rendered => sealBaseline sealer source version rendered
      (anchorSpans (sourceAnchors source rendered)) (protectedSourceRanges source)

section
variable (sealer : Sealer) (late : Nat → Bool) (source version : Text) (snapshot : Snapshot)

theorem sealBaseline_verifies (rendered : Text) (anchors : List (SourceSpan × SourceSpan))
    (ranges : List SourceSpan) :
    (sealBaseline sealer source version rendered anchors ranges).verifyDerivationDigest sealer =
      true := by
  simp [sealBaseline, FormattingBaseline.verifyDerivationDigest, derivationDigestOf]

/-- what is sealed is bound to its transcript and passes its own check -/
theorem formatValidatedForGrammar_identity :
    (formatValidatedForGrammar sealer late source version snapshot).baseVersion = version ∧
    (formatValidatedForGrammar sealer late source version snapshot).baseFingerprint =
      textSha256Fingerprint sealer.digest source ∧
    (formatValidatedForGrammar sealer late source version snapshot).verifyDerivationDigest sealer =
      true := by
  unfold formatValidatedForGrammar sealIdentityBaseline
  split
  · exact ⟨rfl, rfl, sealBaseline_verifies ..⟩
  · exact ⟨rfl, rfl, sealBaseline_verifies ..⟩

theorem smartRendering_eq :
    smartRendering late source snapshot = (sealedText late source snapshot).getD source := by
  unfold sealedText smartRendering
  split
  · rfl
  · cases smartFormat late source snapshot with
    | none => rfl
    | some rendered =>
      show (if _ then _ else _) = Option.getD (if _ then _ else _) source
      split
      · rfl
      · rfl

/-- the text of the baseline is that of `smartRendering` -/
theorem formatValidatedForGrammar_rendered :
    (formatValidatedForGrammar sealer late source version snapshot).rendered =
      smartRendering late source snapshot := by
  rw [smartRendering_eq, formatValidatedForGrammar]
  cases sealedText late source snapshot with
  | none => rfl
  | some rendered => rfl

end

/-! ## where the bytes of the transcript are -/

def spansOverlap (left right : SourceSpan) : Bool := left.start < right.stop && right.start < left.stop

/-- where the literal text has the bytes of a range of the transcript -/
def copies (source : Text) (range : SourceSpan) : List SourceSpan :=
  if hasProtectedCommand source then [range]
  else ((kept source).map fun k =>
    ⟨k.place + (max range.start k.start - k.start), k.place + (min range.stop k.stop - k.start)⟩).filter
      fun copy => copy.start < copy.stop

/-- **a word of the rendering holds a byte of a range of the transcript**: the passes behind the
commands keep the words of the literal text, one for one -/
def holdsByteOf (source rendered : Text) (range word : SourceSpan) : Bool :=
  if rendered = source then spansOverlap range word
  else ((wordTokens rendered).zip (wordTokens (literalText source))).any fun w =>
    tokenSpan w.1 == word && (copies source range).any (spansOverlap (tokenSpan w.2))

end Voisu.Formatting
