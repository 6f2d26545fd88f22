import Mathlib
import Voisu.Diagnostics.Record
import Voisu.Lib.Log

/-!
# The diagnostic store

The history file is a log of JSON lines.  It may hold more than the retention policy keeps: every
read prunes, and the log is rewritten only when it has drifted.  An append can be cut short by a
crash.

* `RetentionPolicy.prune`   the records that the policy keeps;
* `Codec`                   the JSON library, with what the store relies on (`Faithful`);
* `Op`, `Store.step`        the operations, a crash inside an append among them;
* `Store.run_history`       **the history is that of an unbounded log pruned on every read**.

The file is the list of its bytes; a missing file reads and appends like an empty one.
-/

namespace Voisu.Diagnostics
open Lib

/-! ## retention -/

structure RetentionPolicy where
  maxRecords : Nat
  maxAgeMs : Nat
deriving DecidableEq, Repr

structure PruneOutcome where
  kept : List DiagnosticRecord
  expiredAudio : List Text
deriving DecidableEq, Repr

namespace RetentionPolicy

def ageFloor (policy : RetentionPolicy) (nowMs : Nat) : Nat := nowMs - policy.maxAgeMs

def isYoung (policy : RetentionPolicy) (nowMs : Nat) (record : DiagnosticRecord) : Bool :=
  policy.ageFloor nowMs ≤ record.recordedAtUnixMs

def audioExpired (nowMs : Nat) (record : DiagnosticRecord) : Bool :=
  record.debugAudio.any fun audio => audio.isExpired nowMs

def detachExpired (nowMs : Nat) (record : DiagnosticRecord) : DiagnosticRecord :=
  if audioExpired nowMs record then { record with debugAudio := none } else record

def audioNames (records : List DiagnosticRecord) : List Text :=
  records.filterMap fun record => record.debugAudio.map DebugAudioRecord.fileName

def prune (policy : RetentionPolicy) (records : List DiagnosticRecord) (nowMs : Nat) :
    PruneOutcome :=
  let young := records.filter (policy.isYoung nowMs)
  let overflow := young.length - policy.maxRecords
  let retained := young.drop overflow
  { kept := retained.map (detachExpired nowMs)
    expiredAudio :=
      audioNames (records.filter fun record => !policy.isYoung nowMs record) ++
        audioNames (young.take overflow) ++ audioNames (retained.filter (audioExpired nowMs)) }

/-- how far the log may drift before a write compacts it -/
def compactionSlack (policy : RetentionPolicy) : Nat := max (policy.maxRecords / 4) 8

def expiredByAge (policy : RetentionPolicy) (records : List DiagnosticRecord) (nowMs : Nat) : Nat :=
  records.countP fun record => !policy.isYoung nowMs record

/-- the sum of the bound and the slack wraps around -/
def drifted (policy : RetentionPolicy) (records : List DiagnosticRecord) (nowMs : Nat) : Bool :=
  (policy.maxRecords + policy.compactionSlack) % 2 ^ 64 < records.length + 1 ||
    policy.compactionSlack < policy.expiredByAge records nowMs

end RetentionPolicy

/-! ## the file -/

/-- the JSON encoder and decoder of a record -/
structure Codec where
  encode : DiagnosticRecord → List UInt8
  decode : List UInt8 → Option DiagnosticRecord

def newline : UInt8 := 10

/-- a record is encoded as one line that decodes back, and no part of the line decodes -/
structure Codec.Faithful (codec : Codec) (record : DiagnosticRecord) : Prop where
  nonempty : codec.encode record ≠ []
  oneLine : newline ∉ codec.encode record
  decodes : codec.decode (codec.encode record) = some record
  torn : ∀ part, part <+: codec.encode record → part ≠ codec.encode record →
    codec.decode part = none

namespace Codec

def loadRaw (codec : Codec) (file : List UInt8) : List DiagnosticRecord :=
  (lines newline file).filterMap codec.decode

/-- the bytes that an append writes -/
def appended (codec : Codec) (file : List UInt8) (record : DiagnosticRecord) : List UInt8 :=
  lineBreakFor newline file ++ (codec.encode record ++ [newline])

def writeAll (codec : Codec) (records : List DiagnosticRecord) : List UInt8 :=
  records.flatMap fun record => codec.encode record ++ [newline]

end Codec

structure StoreConfig where
  policy : RetentionPolicy
  codec : Codec
  digest : Digest

namespace StoreConfig

/-- the log is rewritten to the retained set -/
def compact (cfg : StoreConfig) (records : List DiagnosticRecord) (nowMs : Nat) : List UInt8 :=
  cfg.codec.writeAll (cfg.policy.prune records nowMs).kept

/-- the file after `record`; the clock is read once for the drift and once for the pruning -/
def record (cfg : StoreConfig) (file : List UInt8) (record : DiagnosticRecord)
    (driftMs nowMs : Nat) : List UInt8 :=
  let records := cfg.codec.loadRaw file
  let record := record.prepared cfg.digest
  if cfg.policy.drifted records driftMs then cfg.compact (records ++ [record]) nowMs
  else file ++ cfg.codec.appended file record

def history (cfg : StoreConfig) (file : List UInt8) (nowMs : Nat) : List DiagnosticRecord :=
  (cfg.policy.prune (cfg.codec.loadRaw file) nowMs).kept.reverse

/-- the history file after `cleanup_expired` -/
def cleanupExpired (cfg : StoreConfig) (file : List UInt8) (nowMs : Nat) : List UInt8 :=
  cfg.compact (cfg.codec.loadRaw file) nowMs

/-- the file after `record` is cut short; a compaction replaces the file at once, so a crash before
that leaves it as it was -/
def crashedRecord (cfg : StoreConfig) (file : List UInt8) (record : DiagnosticRecord)
    (driftMs written : Nat) : List UInt8 :=
  if cfg.policy.drifted (cfg.codec.loadRaw file) driftMs then file
  else file ++ (cfg.codec.appended file (record.prepared cfg.digest)).take written

end StoreConfig

/-! ## runs -/

inductive Op where
  | record (entry : DiagnosticRecord) (driftMs nowMs : Nat)
  | crash (entry : DiagnosticRecord) (driftMs written : Nat)
  | history (nowMs : Nat)
  | cleanupExpired (nowMs : Nat)
deriving DecidableEq, Repr

namespace Op

/-- the readings of the clock, in order -/
def clocks : Op → List Nat
  | .record _ driftMs nowMs => [driftMs, nowMs]
  | .crash _ driftMs _ => [driftMs]
  | .history nowMs => [nowMs]
  | .cleanupExpired nowMs => [nowMs]

/-- the record that an operation writes, or starts to write -/
def written? : Op → Option DiagnosticRecord
  | .record entry _ _ | .crash entry _ _ => some entry
  | .history _ | .cleanupExpired _ => none

/-- the record that an operation acknowledges -/
def acknowledged? : Op → Option DiagnosticRecord
  | .record entry _ _ => some entry
  | .crash _ _ _ | .history _ | .cleanupExpired _ => none

end Op

/-- the file, and the records whose lines were written in whole -/
structure Store where
  file : List UInt8
  log : List DiagnosticRecord

namespace Store

def init : Store := ⟨[], []⟩

/-- a crash that comes behind the whole line loses nothing -/
def wholeLine (cfg : StoreConfig) (file : List UInt8) (record : DiagnosticRecord)
    (driftMs written : Nat) : Bool :=
  !cfg.policy.drifted (cfg.codec.loadRaw file) driftMs &&
    (lineBreakFor newline file).length +
      (cfg.codec.encode (record.prepared cfg.digest)).length ≤ written

def step (cfg : StoreConfig) (s : Store) : Op → Store
  | .record entry driftMs nowMs =>
    { file := cfg.record s.file entry driftMs nowMs
      log := s.log ++ [entry.prepared cfg.digest] }
  | .crash entry driftMs written =>
    { file := cfg.crashedRecord s.file entry driftMs written
      log := s.log ++
        if wholeLine cfg s.file entry driftMs written then [entry.prepared cfg.digest] else [] }
  | .history _ => s
  | .cleanupExpired nowMs => { s with file := cfg.cleanupExpired s.file nowMs }

def run (cfg : StoreConfig) (s : Store) (ops : List Op) : Store := ops.foldl (step cfg) s

end Store

/-! ## what the file holds -/

namespace Codec

variable {codec : Codec}

theorem loadRaw_append (file : List UInt8) {record : DiagnosticRecord}
    (h : codec.Faithful record) :
    codec.loadRaw (file ++ codec.appended file record) = codec.loadRaw file ++ [record] := by
  unfold loadRaw appended
  rw [← List.append_assoc, lines_append_line file h.oneLine h.nonempty, List.filterMap_append]
  congr 1
  rw [List.filterMap_cons, h.decodes]
  rfl

/-- **an append that is cut short loses its own record at most** -/
theorem loadRaw_torn (file : List UInt8) {record : DiagnosticRecord} (h : codec.Faithful record)
    (written : Nat) :
    codec.loadRaw (file ++ (codec.appended file record).take written) =
      codec.loadRaw file ++
        if (lineBreakFor newline file).length + (codec.encode record).length ≤ written
        then [record] else [] := by
  unfold appended
  generalize hbreak : lineBreakFor newline file = sep
  rw [List.take_append]
  by_cases hsep : written ≤ sep.length
  · have hpos := List.length_pos_iff.mpr h.nonempty
    rw [Nat.sub_eq_zero_of_le hsep, List.take_zero, List.append_nil, if_neg (by omega),
      List.append_nil, ← hbreak]
    unfold loadRaw
    rw [lines_append_take_break]
  · rw [List.take_of_length_le (by omega), ← List.append_assoc, ← hbreak]
    rw [← hbreak] at hsep
    by_cases hwhole : (lineBreakFor newline file).length + (codec.encode record).length ≤ written
    · rw [if_pos hwhole]
      by_cases hall : (codec.encode record ++ [newline]).length ≤
          written - (lineBreakFor newline file).length
      · rw [List.take_of_length_le hall, List.append_assoc]
        exact loadRaw_append file h
      · -- all of the line but its line feed
        rw [List.length_append, List.length_singleton] at hall
        rw [List.take_append_of_le_length (by omega), List.take_of_length_le (by omega)]
        unfold loadRaw
        rw [lines_append_torn file h.oneLine, if_neg h.nonempty, List.filterMap_append]
        congr 1
        rw [List.filterMap_cons, h.decodes]
        rfl
    · rw [if_neg hwhole, List.append_nil, List.take_append_of_le_length (by omega)]
      have hpre := List.take_prefix (written - (lineBreakFor newline file).length)
        (codec.encode record)
      have hne : (codec.encode record).take (written - (lineBreakFor newline file).length) ≠
          codec.encode record := by
        intro h0
        have := congrArg List.length h0
        rw [List.length_take] at this
        omega
      have hline : newline ∉
          (codec.encode record).take (written - (lineBreakFor newline file).length) :=
        fun h0 => h.oneLine (hpre.mem h0)
      unfold loadRaw
      rw [lines_append_torn file hline, List.filterMap_append]
      split
      · exact List.append_nil _
      · rw [List.filterMap_cons, h.torn _ hpre hne]
        exact List.append_nil _

theorem loadRaw_writeAll {records : List DiagnosticRecord}
    (h : ∀ record ∈ records, codec.Faithful record) :
    codec.loadRaw (codec.writeAll records) = records := by
  induction records with
  | nil => rfl
  | cons record records ih =>
    have hr := h record List.mem_cons_self
    have ih := ih fun r hr => h r (List.mem_cons_of_mem _ hr)
    unfold loadRaw writeAll at ih ⊢
    rw [List.flatMap_cons, lines_cons_line hr.oneLine hr.nonempty, List.filterMap_cons,
      hr.decodes, ih]

/-- the encoder and the decoder on one record -/
def ofLine (record : DiagnosticRecord) (line : List UInt8) : Codec where
  encode := fun _ => line
  decode := fun l => if l = line then some record else none

theorem ofLine_faithful {record : DiagnosticRecord} {line : List UInt8} (hne : line ≠ [])
    (hline : newline ∉ line) : (ofLine record line).Faithful record where
  nonempty := hne
  oneLine := hline
  decodes := if_pos rfl
  torn := fun _ _ h => if_neg h

end Codec

/-! ## pruning twice -/

namespace RetentionPolicy

variable {policy : RetentionPolicy}

theorem recordedAt_detachExpired (nowMs : Nat) (record : DiagnosticRecord) :
    (detachExpired nowMs record).recordedAtUnixMs = record.recordedAtUnixMs := by
  unfold detachExpired
  split <;> rfl

theorem isYoung_detachExpired (nowMs laterMs : Nat) (record : DiagnosticRecord) :
    policy.isYoung laterMs (detachExpired nowMs record) = policy.isYoung laterMs record := by
  unfold isYoung
  rw [recordedAt_detachExpired]

/-- audio that has expired stays expired -/
theorem detachExpired_detachExpired {nowMs laterMs : Nat} (h : nowMs ≤ laterMs)
    (record : DiagnosticRecord) :
    detachExpired laterMs (detachExpired nowMs record) = detachExpired laterMs record := by
  by_cases hnow : audioExpired nowMs record = true
  · have hlater : audioExpired laterMs record = true := by
      unfold audioExpired at hnow ⊢
      obtain ⟨audio, ha, hexp⟩ := Option.any_eq_true _ _ |>.mp hnow
      rw [ha, Option.any_some]
      simp only [DebugAudioRecord.isExpired, decide_eq_true_eq] at hexp ⊢
      omega
    have hnone : audioExpired laterMs { record with debugAudio := none } = false := rfl
    simp only [detachExpired, if_pos hnow, if_pos hlater, hnone, Bool.false_eq_true, if_false]
  · simp only [detachExpired, if_neg hnow]

theorem isYoung_of_later {nowMs laterMs : Nat} (h : nowMs ≤ laterMs) {record : DiagnosticRecord}
    (hy : policy.isYoung laterMs record = true) : policy.isYoung nowMs record = true := by
  unfold isYoung ageFloor at hy ⊢
  rw [decide_eq_true_eq] at hy ⊢
  omega

/-- the records are in the order in which they were recorded -/
def Chronological (records : List DiagnosticRecord) : Prop :=
  (records.map DiagnosticRecord.recordedAtUnixMs).Pairwise (· ≤ ·)

theorem Chronological.isYoung {records : List DiagnosticRecord} (h : Chronological records)
    (nowMs : Nat) :
    records.Pairwise fun a b => policy.isYoung nowMs a = true → policy.isYoung nowMs b = true := by
  apply (List.pairwise_map.mp h).imp
  intro a b hab ha
  simp only [RetentionPolicy.isYoung, decide_eq_true_eq] at ha ⊢
  omega

theorem prune_kept (records : List DiagnosticRecord) (nowMs : Nat) :
    (policy.prune records nowMs).kept =
      ((records.filter (policy.isYoung nowMs)).rtake policy.maxRecords).map
        (detachExpired nowMs) := rfl

/-- **pruning early changes no later pruning** -/
theorem prune_prune {records new : List DiagnosticRecord} {nowMs laterMs : Nat}
    (h : nowMs ≤ laterMs) (hc : Chronological records) :
    (policy.prune ((policy.prune records nowMs).kept ++ new) laterMs).kept =
      (policy.prune (records ++ new) laterMs).kept := by
  have hyoung : (records.filter (policy.isYoung nowMs)).filter (policy.isYoung laterMs) =
      records.filter (policy.isYoung laterMs) := by
    rw [List.filter_filter]
    apply List.filter_congr
    intro record _
    cases hl : policy.isYoung laterMs record with
    | false => rfl
    | true => rw [isYoung_of_later h hl]; rfl
  have hmap : ∀ kept : List DiagnosticRecord,
      (kept.map (detachExpired nowMs)).filter (policy.isYoung laterMs) =
        (kept.filter (policy.isYoung laterMs)).map (detachExpired nowMs) := by
    intro kept
    rw [List.filter_map]
    congr 1
    apply List.filter_congr
    intro record _
    exact isYoung_detachExpired nowMs laterMs record
  have hdetach : ∀ kept : List DiagnosticRecord,
      (kept.map (detachExpired nowMs)).map (detachExpired laterMs) =
        kept.map (detachExpired laterMs) := by
    intro kept
    rw [List.map_map]
    apply List.map_congr_left
    intro record _
    exact detachExpired_detachExpired h record
  rw [prune_kept, prune_kept, prune_kept, List.filter_append, List.filter_append, hmap,
    ← rtake_map, List.map_append, hdetach, ← List.map_append, rtake_map,
    rtake_filter_rtake ((hc.isYoung laterMs).filter _), hyoung]

theorem mem_prune_kept {records : List DiagnosticRecord} {nowMs : Nat} {record : DiagnosticRecord}
    (h : record ∈ (policy.prune records nowMs).kept) :
    ∃ r ∈ records, record = r ∨ record = { r with debugAudio := none } := by
  rw [prune_kept] at h
  obtain ⟨r, hr, rfl⟩ := List.mem_map.mp h
  refine ⟨r, List.mem_of_mem_filter (List.mem_of_mem_drop hr), ?_⟩
  unfold detachExpired
  split
  · exact Or.inr rfl
  · exact Or.inl rfl

end RetentionPolicy

/-! ## whole runs -/

open RetentionPolicy (Chronological)

/-- the codec is faithful to a record, with and without its debug audio -/
def Codec.FaithfulTo (codec : Codec) (record : DiagnosticRecord) : Prop :=
  codec.Faithful record ∧ codec.Faithful { record with debugAudio := none }

/-- from `nowMs` on the file and the log prune to the same records, whatever is added to both -/
structure Store.Agrees (cfg : StoreConfig) (s : Store) (nowMs : Nat) : Prop where
  faithful : ∀ record ∈ s.log, cfg.codec.FaithfulTo record
  prune : ∀ laterMs, nowMs ≤ laterMs → ∀ new, Chronological (s.log ++ new) →
    (cfg.policy.prune (cfg.codec.loadRaw s.file ++ new) laterMs).kept =
      (cfg.policy.prune (s.log ++ new) laterMs).kept

namespace Store

variable {cfg : StoreConfig} {s : Store} {nowMs : Nat}

theorem agrees_init (cfg : StoreConfig) (nowMs : Nat) : Agrees cfg init nowMs where
  faithful := fun record hr => by cases hr
  prune := fun laterMs _ new _ => rfl

theorem Agrees.later (h : Agrees cfg s nowMs) {laterMs : Nat} (hle : nowMs ≤ laterMs) :
    Agrees cfg s laterMs where
  faithful := h.faithful
  prune := fun t ht new hc => h.prune t (Nat.le_trans hle ht) new hc

theorem Agrees.faithful_append (h : Agrees cfg s nowMs) {new : List DiagnosticRecord}
    (hnew : ∀ record ∈ new, cfg.codec.FaithfulTo record) :
    ∀ record ∈ s.log ++ new, cfg.codec.FaithfulTo record := by
  intro record hr
  rcases List.mem_append.mp hr with hr | hr
  · exact h.faithful record hr
  · exact hnew record hr

/-- a log that grows by what the file grows by -/
theorem Agrees.append (h : Agrees cfg s nowMs) {file : List UInt8} {new : List DiagnosticRecord}
    (hnew : ∀ record ∈ new, cfg.codec.FaithfulTo record)
    (hfile : cfg.codec.loadRaw file = cfg.codec.loadRaw s.file ++ new) :
    Agrees cfg ⟨file, s.log ++ new⟩ nowMs where
  faithful := h.faithful_append hnew
  prune := by
    intro laterMs hle rest hc
    show (cfg.policy.prune (cfg.codec.loadRaw file ++ rest) laterMs).kept =
      (cfg.policy.prune (s.log ++ new ++ rest) laterMs).kept
    rw [hfile, List.append_assoc, List.append_assoc]
    apply h.prune laterMs hle
    rw [← List.append_assoc]
    exact hc

/-- a compaction drops nothing that a later read would show -/
theorem Agrees.compact (h : Agrees cfg s nowMs) {new : List DiagnosticRecord}
    (hnew : ∀ record ∈ new, cfg.codec.FaithfulTo record)
    (hc : Chronological (s.log ++ new)) {laterMs : Nat} (hle : nowMs ≤ laterMs) :
    Agrees cfg ⟨cfg.compact (cfg.codec.loadRaw s.file ++ new) laterMs, s.log ++ new⟩ laterMs where
  faithful := h.faithful_append hnew
  prune := by
    intro t ht rest hrest
    have hkept := h.prune laterMs hle new hc
    have hload : cfg.codec.loadRaw (cfg.compact (cfg.codec.loadRaw s.file ++ new) laterMs) =
        (cfg.policy.prune (s.log ++ new) laterMs).kept := by
      unfold StoreConfig.compact
      rw [hkept]
      apply Codec.loadRaw_writeAll
      intro record hmem
      obtain ⟨r, hr, rfl | rfl⟩ := RetentionPolicy.mem_prune_kept hmem
      · exact (h.faithful_append hnew _ hr).1
      · exact (h.faithful_append hnew _ hr).2
    show (cfg.policy.prune (cfg.codec.loadRaw (cfg.compact _ laterMs) ++ rest) t).kept = _
    rw [hload, RetentionPolicy.prune_prune ht hc]

theorem chronological_left {a b : List DiagnosticRecord} (h : Chronological (a ++ b)) :
    Chronological a := by
  unfold RetentionPolicy.Chronological at h ⊢
  rw [List.map_append] at h
  exact (List.pairwise_append.mp h).1

/-- **one operation** -/
theorem Agrees.step (h : Agrees cfg s nowMs) {op : Op} {lastMs : Nat}
    (hclock : ∀ c ∈ op.clocks, nowMs ≤ c ∧ c ≤ lastMs)
    (hcodec : ∀ record, op.written? = some record →
      cfg.codec.FaithfulTo (record.prepared cfg.digest))
    (hc : Chronological
      (s.log ++ (op.written?.map (DiagnosticRecord.prepared cfg.digest)).toList)) :
    Agrees cfg (s.step cfg op) lastMs := by
  cases op with
  | record entry driftMs now =>
    obtain ⟨h1, h2⟩ := hclock now (by simp [Op.clocks])
    have hnew : ∀ record ∈ [entry.prepared cfg.digest], cfg.codec.FaithfulTo record := by
      intro record hr
      rw [List.mem_singleton.mp hr]
      exact hcodec entry rfl
    show Agrees cfg ⟨if cfg.policy.drifted (cfg.codec.loadRaw s.file) driftMs then _ else _, _⟩ lastMs
    split
    · exact (h.compact hnew hc h1).later h2
    · exact (h.append hnew (Codec.loadRaw_append s.file (hcodec entry rfl).1)).later
        (Nat.le_trans h1 h2)
  | crash entry driftMs written =>
    obtain ⟨h1, h2⟩ := hclock driftMs (by simp [Op.clocks])
    show Agrees cfg ⟨if cfg.policy.drifted (cfg.codec.loadRaw s.file) driftMs then _ else _,
      s.log ++ if (!cfg.policy.drifted (cfg.codec.loadRaw s.file) driftMs && _) = true then _ else _⟩
      lastMs
    split
    · rename_i hd
      rw [hd]
      exact (h.append (fun _ hr => by cases hr) (List.append_nil _).symm).later
        (Nat.le_trans h1 h2)
    · rename_i hd
      rw [Bool.not_eq_true _ |>.mp hd]
      refine (h.append ?_ ?_).later (Nat.le_trans h1 h2)
      · intro record hr
        split at hr
        · rw [List.mem_singleton.mp hr]
          exact hcodec entry rfl
        · cases hr
      · rw [Codec.loadRaw_torn s.file (hcodec entry rfl).1]
        simp only [Bool.not_false, Bool.true_and, decide_eq_true_eq]
  | history now =>
    obtain ⟨h1, h2⟩ := hclock now (by simp [Op.clocks])
    exact h.later (Nat.le_trans h1 h2)
  | cleanupExpired now =>
    obtain ⟨h1, h2⟩ := hclock now (by simp [Op.clocks])
    have hnone : ∀ record ∈ ([] : List DiagnosticRecord), cfg.codec.FaithfulTo record := by
      intro record hr
      cases hr
    have := h.compact hnone hc h1
    rw [List.append_nil, List.append_nil] at this
    exact this.later h2

theorem step_log (cfg : StoreConfig) (s : Store) (op : Op) :
    ∃ new, (s.step cfg op).log = s.log ++ new ∧
      (op.acknowledged?.map (DiagnosticRecord.prepared cfg.digest)).toList.Sublist new ∧
      new.Sublist (op.written?.map (DiagnosticRecord.prepared cfg.digest)).toList := by
  cases op with
  | record entry driftMs now => exact ⟨_, rfl, List.Sublist.refl _, List.Sublist.refl _⟩
  | crash entry driftMs written =>
    refine ⟨_, rfl, List.nil_sublist _, ?_⟩
    split
    · exact List.Sublist.refl _
    · exact List.nil_sublist _
  | history now => exact ⟨[], (List.append_nil _).symm, List.Sublist.refl _, List.Sublist.refl _⟩
  | cleanupExpired now =>
    exact ⟨[], (List.append_nil _).symm, List.Sublist.refl _, List.Sublist.refl _⟩

/-- the log holds what was acknowledged, and at most what was written -/
theorem run_log (cfg : StoreConfig) (s : Store) (ops : List Op) :
    ∃ new, (s.run cfg ops).log = s.log ++ new ∧
      ((ops.filterMap Op.acknowledged?).map (DiagnosticRecord.prepared cfg.digest)).Sublist new ∧
      new.Sublist ((ops.filterMap Op.written?).map (DiagnosticRecord.prepared cfg.digest)) := by
  induction ops generalizing s with
  | nil => exact ⟨[], (List.append_nil _).symm, List.Sublist.refl _, List.Sublist.refl _⟩
  | cons op ops ih =>
    obtain ⟨new, h1, h2, h3⟩ := step_log cfg s op
    obtain ⟨rest, h4, h5, h6⟩ := ih (s.step cfg op)
    refine ⟨new ++ rest, ?_, ?_, ?_⟩
    · show ((s.step cfg op).run cfg ops).log = _
      rw [h4, h1, List.append_assoc]
    · have := h2.append h5
      cases ha : op.acknowledged? <;> simpa [ha] using this
    · have := h3.append h6
      cases hw : op.written? <;> simpa [hw] using this

theorem clocks_split (op : Op) : ∃ cs c, op.clocks = cs ++ [c] := by
  cases op with
  | record entry driftMs now => exact ⟨[driftMs], now, rfl⟩
  | crash entry driftMs written => exact ⟨[], driftMs, rfl⟩
  | history now => exact ⟨[], now, rfl⟩
  | cleanupExpired now => exact ⟨[], now, rfl⟩

/-- **a whole run** -/
theorem Agrees.run {ops : List Op} {lastMs : Nat} (h : Agrees cfg s nowMs)
    (hclock : (nowMs :: (ops.flatMap Op.clocks ++ [lastMs])).Pairwise (· ≤ ·))
    (hcodec : ∀ record ∈ ops.filterMap Op.written?,
      cfg.codec.FaithfulTo (record.prepared cfg.digest))
    (hc : Chronological
      (s.log ++ (ops.filterMap Op.written?).map (DiagnosticRecord.prepared cfg.digest))) :
    Agrees cfg (s.run cfg ops) lastMs := by
  induction ops generalizing s nowMs with
  | nil => exact h.later ((List.pairwise_cons.mp hclock).1 lastMs (by simp))
  | cons op ops ih =>
    obtain ⟨cs, c, hcs⟩ := clocks_split op
    rw [List.flatMap_cons, hcs, List.append_assoc, List.append_assoc] at hclock
    obtain ⟨hnow, hrest⟩ := List.pairwise_cons.mp hclock
    obtain ⟨-, htail, hbefore⟩ := List.pairwise_append.mp hrest
    have hwritten : (op :: ops).filterMap Op.written? =
        op.written?.toList ++ ops.filterMap Op.written? := by
      cases hw : op.written? <;> simp [hw]
    rw [hwritten, List.map_append, ← List.append_assoc] at hc
    have hone : op.written?.toList.map (DiagnosticRecord.prepared cfg.digest) =
        (op.written?.map (DiagnosticRecord.prepared cfg.digest)).toList := by
      cases op.written? <;> rfl
    rw [hone] at hc
    have hstep : Agrees cfg (s.step cfg op) c := by
      apply h.step
      · intro d hd
        rw [hcs] at hd
        refine ⟨hnow d (List.mem_append.mpr ?_), ?_⟩
        · rcases List.mem_append.mp hd with hd | hd
          · exact Or.inl hd
          · exact Or.inr (List.mem_append_left _ hd)
        · rcases List.mem_append.mp hd with hd | hd
          · exact hbefore d hd c (by simp)
          · exact Nat.le_of_eq (List.mem_singleton.mp hd)
      · intro record hr
        exact hcodec record (by rw [hwritten, hr]; simp)
      · exact chronological_left hc
    apply ih hstep htail
    · intro record hr
      exact hcodec record (by rw [hwritten]; exact List.mem_append_right _ hr)
    · obtain ⟨new, h1, -, h3⟩ := step_log cfg s op
      unfold RetentionPolicy.Chronological at hc ⊢
      rw [h1]
      refine hc.sublist (List.Sublist.map _ ?_)
      exact ((List.Sublist.refl _).append h3).append (List.Sublist.refl _)

theorem chronological_prepared {cfg : StoreConfig} {records : List DiagnosticRecord}
    (h : Chronological records) :
    Chronological (records.map (DiagnosticRecord.prepared cfg.digest)) := by
  unfold RetentionPolicy.Chronological at h ⊢
  rw [List.map_map]
  exact h

theorem history_run {ops : List Op}
    (hclock : (ops.flatMap Op.clocks ++ [nowMs]).Pairwise (· ≤ ·))
    (hrecorded : Chronological (ops.filterMap Op.written?))
    (hcodec : ∀ record ∈ ops.filterMap Op.written?,
      cfg.codec.FaithfulTo (record.prepared cfg.digest)) :
    cfg.history (init.run cfg ops).file nowMs =
      (cfg.policy.prune (init.run cfg ops).log nowMs).kept.reverse := by
  have hc := @chronological_prepared cfg _ hrecorded
  have hagrees : Agrees cfg (init.run cfg ops) nowMs := by
    apply (agrees_init cfg 0).run _ hcodec hc
    exact List.pairwise_cons.mpr ⟨fun c _ => Nat.zero_le c, hclock⟩
  have hlog : Chronological ((init.run cfg ops).log ++ []) := by
    obtain ⟨new, h1, -, h3⟩ := run_log cfg init ops
    rw [List.append_nil, h1]
    exact hc.sublist (h3.map _)
  have := hagrees.prune nowMs (Nat.le_refl _) [] hlog
  rw [List.append_nil, List.append_nil] at this
  unfold StoreConfig.history
  rw [this]

/-- **the history is that of an unbounded log, pruned when it is read**: the log holds every
acknowledged record, and of the others those whose whole line was written before a crash -/
theorem run_history (cfg : StoreConfig) (ops : List Op) (nowMs : Nat)
    (hclock : (ops.flatMap Op.clocks ++ [nowMs]).Pairwise (· ≤ ·))
    (hrecorded : Chronological (ops.filterMap Op.written?))
    (hcodec : ∀ record ∈ ops.filterMap Op.written?,
      cfg.codec.FaithfulTo (record.prepared cfg.digest)) :
    cfg.history (init.run cfg ops).file nowMs =
        (cfg.policy.prune (init.run cfg ops).log nowMs).kept.reverse ∧
      ((ops.filterMap Op.acknowledged?).map (DiagnosticRecord.prepared cfg.digest)).Sublist
        (init.run cfg ops).log ∧
      (init.run cfg ops).log.Sublist
        ((ops.filterMap Op.written?).map (DiagnosticRecord.prepared cfg.digest)) := by
  obtain ⟨new, h1, h2, h3⟩ := run_log cfg init ops
  have hlog : (init.run cfg ops).log = new := h1
  refine ⟨history_run hclock hrecorded hcodec, ?_, ?_⟩
  · rw [hlog]
    exact h2
  · rw [hlog]
    exact h3

/-! ## a crash behind the whole line -/

/-- the history is that of the acknowledged records alone -/
def HistoryOfAcknowledged (cfg : StoreConfig) (ops : List Op) (nowMs : Nat) : Prop :=
  cfg.history (init.run cfg ops).file nowMs =
    (cfg.policy.prune
      ((ops.filterMap Op.acknowledged?).map (DiagnosticRecord.prepared cfg.digest)) nowMs).kept.reverse

def sampleRecord : DiagnosticRecord := DiagnosticRecord.new "rec-1-1-1".toList 1 1

/-- the line that is written for `sampleRecord`: its correlation id, its numbers, the empty lists and
the flags -/
def sampleLine : List UInt8 :=
  [123, 34, 99, 111, 114, 114, 101, 108, 97, 116, 105, 111, 110, 95, 105, 100, 34, 58, 34, 114,
    101, 99, 45, 49, 45, 49, 45, 49, 34, 44, 34, 114, 101, 99, 111, 114, 100, 105, 110, 103, 95,
    105, 100, 34, 58, 49, 44, 34, 114, 101, 99, 111, 114, 100, 101, 100, 95, 97, 116, 95, 117,
    110, 105, 120, 95, 109, 115, 34, 58, 49, 44, 34, 115, 116, 97, 103, 101, 115, 34, 58, 91,
    93, 44, 34, 115, 116, 114, 101, 97, 109, 101, 100, 95, 99, 104, 117, 110, 107, 95, 99, 111,
    117, 110, 116, 34, 58, 48, 44, 34, 115, 111, 117, 114, 99, 101, 95, 116, 114, 97, 110, 115,
    99, 114, 105, 112, 116, 115, 34, 58, 91, 93, 44, 34, 114, 101, 99, 111, 110, 99, 105, 108,
    105, 97, 116, 105, 111, 110, 95, 114, 101, 113, 117, 101, 115, 116, 101, 100, 34, 58, 102,
    97, 108, 115, 101, 44, 34, 114, 101, 99, 111, 118, 101, 114, 121, 95, 97, 116, 116, 101,
    109, 112, 116, 101, 100, 34, 58, 102, 97, 108, 115, 101, 44, 34, 100, 101, 108, 105, 118,
    101, 114, 121, 95, 99, 111, 117, 110, 116, 34, 58, 48, 44, 34, 112, 114, 111, 118, 105, 100,
    101, 114, 95, 116, 105, 109, 105, 110, 103, 115, 95, 109, 115, 34, 58, 91, 93, 44, 34, 116,
    101, 108, 101, 109, 101, 116, 114, 121, 95, 115, 99, 104, 101, 109, 97, 34, 58, 50, 125]

def sampleConfig : StoreConfig where
  policy := { maxRecords := 200, maxAgeMs := 604800000 }
  codec := Codec.ofLine sampleRecord sampleLine
  digest := fun _ => []

theorem sampleConfig_faithful :
    sampleConfig.codec.FaithfulTo (sampleRecord.prepared sampleConfig.digest) := by
  have hline : newline ∉ sampleLine := by decide +kernel
  have h := @Codec.ofLine_faithful sampleRecord sampleLine (List.cons_ne_nil _ _) hline
  exact ⟨h, h⟩

/-- every byte of the record is on disk, and the crash comes before the line feed -/
def crashBeforeLineFeed : List Op := [.crash sampleRecord 1 sampleLine.length]

theorem crashBeforeLineFeed_kept : ¬ HistoryOfAcknowledged sampleConfig crashBeforeLineFeed 2 := by
  unfold HistoryOfAcknowledged
  decide +kernel

theorem run_history_sample :
    sampleConfig.history (init.run sampleConfig
        [.record sampleRecord 1 1, .crash sampleRecord 2 7, .record sampleRecord 3 3]).file 4 =
      (sampleConfig.policy.prune (init.run sampleConfig
        [.record sampleRecord 1 1, .crash sampleRecord 2 7,
          .record sampleRecord 3 3]).log 4).kept.reverse := by
  refine (run_history sampleConfig _ 4 (by decide) ?_ ?_).1
  · unfold RetentionPolicy.Chronological
    decide
  · intro record hr
    have hr : record = sampleRecord := by
      simpa [Op.written?] using hr
    rw [hr]
    exact sampleConfig_faithful

end Store

end Voisu.Diagnostics
