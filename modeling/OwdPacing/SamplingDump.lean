import OwdPacing.Dump
import OwdPacing.Experiment

/-!
# The dump of the RTT records

`DumpRttSamples` as it writes to the log, as a table, and what the table says at the
end of the way from the packets to the text: over paths with fixed delays each of its
lines holds these delays and the answer which forward path is the faster one, as far
as sampling can find it.
-/

namespace OwdPacing

open Container Csv OWdClientBasic Round Runs

/-! ## The stream -/

/-- The header line of `DumpRttSamples`, without its end. -/
def dumpRttHeader : Text :=
  "RoundId,RealForwardDelay0,RealForwardDelay1,RealReverseDelay0,RealReverseDelay1,".toList
    ++ "Rtt0,Rtt1,ForwardFastSubflowId".toList

/-- One pass of the loop of `DumpRttSamples`, for the record `it` at `distance` from the
first one. -/
def dumpRttSample (int time : Int → Text) (distance : Nat) (it : RoundStats) : Text :=
  int distance
    ++ ",".toList ++ time (it.RealForwardDelay 0)
    ++ ",".toList ++ time (it.RealForwardDelay 1)
    ++ ",".toList ++ time (it.RealReverseDelay 0)
    ++ ",".toList ++ time (it.RealReverseDelay 1)
    ++ ",".toList ++ time (it.rtt 0)
    ++ ",".toList ++ time (it.rtt 1)
    ++ ",".toList ++ int it.ForwardFastSubflow
    ++ endl

/-- `OWDHost::DumpRttSamples`: what it writes for the records of `m_rttRoundStats`. -/
def dumpRttSamples (int time : Int → Text) (samples : List RoundStats) : Text :=
  dumpRttHeader ++ endl
    ++ samples.zipIdx.flatMap fun (it, distance) => dumpRttSample int time distance it

/-! ## The table -/

/-- The columns of the dump. -/
inductive RttColumn
  | roundId
  | realForwardDelay (path : Socket)
  | realReverseDelay (path : Socket)
  | rtt (path : Socket)
  | forwardFastSubflowId
  deriving DecidableEq

namespace RttColumn

/-- The columns from left to right. -/
def all : List RttColumn :=
  [roundId, realForwardDelay 0, realForwardDelay 1, realReverseDelay 0, realReverseDelay 1,
    rtt 0, rtt 1, forwardFastSubflowId]

/-- The name of a column in the header line. -/
def name : RttColumn → Text
  | roundId => "RoundId".toList
  | realForwardDelay 0 => "RealForwardDelay0".toList
  | realForwardDelay 1 => "RealForwardDelay1".toList
  | realReverseDelay 0 => "RealReverseDelay0".toList
  | realReverseDelay 1 => "RealReverseDelay1".toList
  | rtt 0 => "Rtt0".toList
  | rtt 1 => "Rtt1".toList
  | forwardFastSubflowId => "ForwardFastSubflowId".toList

/-- What a column says of a record. -/
def value (sample : RoundStats × Nat) : RttColumn → Int
  | roundId => sample.2
  | realForwardDelay path => sample.1.RealForwardDelay path
  | realReverseDelay path => sample.1.RealReverseDelay path
  | rtt path => sample.1.rtt path
  | forwardFastSubflowId => sample.1.ForwardFastSubflow

/-- The printer of a column: `int` for the round number and the subflow id. -/
def printer (int time : Printer Int ',' '\n') : RttColumn → Printer Int ',' '\n'
  | roundId | forwardFastSubflowId => int
  | _ => time

/-- The field of a record in a column. -/
def cell (int time : Printer Int ',' '\n') (sample : RoundStats × Nat) (c : RttColumn) : Text :=
  (c.printer int time).text (c.value sample)

theorem mem_all (c : RttColumn) : c ∈ all := by
  cases c with
  | realForwardDelay path | realReverseDelay path | rtt path => revert path; decide
  | _ => decide

theorem eq_of_name_eq (c d : RttColumn) (same : d.name = c.name) : d = c := by
  have unique : ∀ c ∈ all, ∀ d ∈ all, d.name = c.name → d = c := by decide +kernel
  exact unique c c.mem_all d d.mem_all same

theorem name_clean (c : RttColumn) : ',' ∉ c.name ∧ '\n' ∉ c.name := by
  have clean : ∀ c ∈ all, ',' ∉ c.name ∧ '\n' ∉ c.name := by decide +kernel
  exact clean c c.mem_all

theorem cell_clean (int time : Printer Int ',' '\n') (sample : RoundStats × Nat) (c : RttColumn) :
    ',' ∉ c.cell int time sample ∧ '\n' ∉ c.cell int time sample :=
  ⟨(c.printer int time).sep_not_mem _, (c.printer int time).eol_not_mem _⟩

/-- What a column says of round `k` when the paths have fixed delays. -/
def onPaths (paths : Paths) (k : Nat) : RttColumn → Int
  | roundId => k
  | realForwardDelay path => paths.forward path
  | realReverseDelay path => paths.reverse path
  | rtt path => paths.forward path + paths.reverse path
  | forwardFastSubflowId => if paths.forward 1 < paths.forward 0 then 1 else -1

end RttColumn

/-- A reader of the dump: what each column says in each record line. -/
noncomputable def readRttDump (int time : Printer Int ',' '\n') (text : Text) :
    List (RttColumn → Option Int) :=
  (readTable ',' '\n' RttColumn.name text).map fun row c =>
    (row c).bind (c.printer int time).read

section Samples

variable {int time : Printer Int ',' '\n'}

theorem dumpRttSamples_eq (samples : List RoundStats) :
    dumpRttSamples int.text time.text samples =
      table ',' '\n' RttColumn.all RttColumn.name (RttColumn.cell int time) samples.zipIdx := by
  have header : dumpRttHeader = line ',' (RttColumn.all.map RttColumn.name) := by decide +kernel
  unfold dumpRttSamples table unlines
  rw [List.flatMap_cons, List.flatMap_map, header]
  refine congrArg (_ ++ ·) (List.flatMap_congr fun sample _ => ?_)
  unfold dumpRttSample RttColumn.all
  simp [line_cons_cons, line_singleton, RttColumn.cell, RttColumn.printer, RttColumn.value]

/-- What was written is read back. -/
theorem readRttDump_dumpRttSamples (samples : List RoundStats) :
    readRttDump int time (dumpRttSamples int.text time.text samples) =
      samples.zipIdx.map fun sample c => some (c.value sample) := by
  unfold readRttDump
  rw [dumpRttSamples_eq, readTable_table (by decide) RttColumn.mem_all (List.cons_ne_nil _ _)
    RttColumn.eq_of_name_eq RttColumn.name_clean (RttColumn.cell_clean int time), List.map_map]
  refine List.map_congr_left fun sample _ => funext fun c => ?_
  exact (c.printer int time).read_text _

end Samples

/-! ## What it says of a run -/

namespace Sys

variable {cfg : Config} {paths : Paths} {s : Sys} {k : Nat} {t₀ : Int} {stats : RoundStats}

/-- The fast subflow of each record, when the forward delays differ. -/
theorem paced_fastSubflow (adm : cfg.Admissible) (nonneg : 0 ≤ t₀)
    (reach : Reach (next cfg) (Paced paths) (boot t₀) s)
    (record : s.client.m_rttRoundStats[k]? = some stats) :
    (paths.forward 1 < paths.forward 0 → stats.ForwardFastSubflow = 1) ∧
      (paths.forward 0 < paths.forward 1 → stats.ForwardFastSubflow = -1) := by
  have history := ((Start.boot t₀).reach adm reach).history
  obtain ⟨lt, get⟩ := List.getElem?_eq_some_iff.mp record
  obtain ⟨begin, c, -, ended⟩ := history.sampled k stats (Nat.zero_le k) record
  constructor
  · intro faster
    have one := ended.firstServed.resolve_left fun zero =>
      absurd (paced_firstServed adm nonneg reach lt zero) (not_le.mpr faster)
    rw [ended.forwardFastSubflow, if_pos one]
  · intro slower
    have last : back (s.client.m_rttRoundStats.take (k + 1)) = stats := by
      rw [List.take_succ_eq_append_getElem lt, back_append, get]
    rw [← last, history.unknown_iff rfl lt]
    intro j earlier
    obtain ⟨begin, c, ended⟩ := history.sampledRound rfl (k := j) (by omega)
    exact ended.firstServed.resolve_right fun one =>
      absurd (paced_firstServed adm nonneg reach (by omega) one) (not_le.mpr slower)

/-- **The dump of RTT sampling tells the paths.**  In every state of a run over paths with
fixed delays the dump, read back by the names of its columns, has one line for each
RTT record; line `k` gives the number `k` and the delays of the two paths as they are;
and it names subflow 1 as the fast one if the forward path of socket 1 is the faster one,
and writes -1 if that of socket 0 is. -/
theorem samplingDump_paths (int time : Printer Int ',' '\n') (adm : cfg.Admissible)
    (nonneg : 0 ≤ t₀) (reach : Reach (next cfg) (Paced paths) (boot t₀) s) :
    let rows := readRttDump int time (dumpRttSamples int.text time.text s.client.m_rttRoundStats)
    rows.length = s.client.m_rttRoundStats.length ∧
      ∀ k row, rows[k]? = some row → ∀ c : RttColumn,
        (c = .forwardFastSubflowId → paths.forward 0 ≠ paths.forward 1) →
        row c = some (c.onPaths paths k) := by
  intro rows
  have read : rows = s.client.m_rttRoundStats.zipIdx.map fun sample c => some (c.value sample) :=
    readRttDump_dumpRttSamples _
  constructor
  · rw [read, List.length_map, List.length_zipIdx]
  · intro k row get c apart
    rw [read, List.getElem?_map, List.getElem?_zipIdx, Option.map_map,
      Option.map_eq_some_iff] at get
    obtain ⟨stats, record, rfl⟩ := get
    have measured := paced_measured adm nonneg reach record
    refine congrArg some ?_
    cases c with
    | roundId => exact congrArg Nat.cast (Nat.zero_add k)
    | realForwardDelay path => exact congrFun measured.realForward path
    | realReverseDelay path => exact congrFun measured.realReverse path
    | rtt path => exact congrFun measured.rtt path
    | forwardFastSubflowId =>
        obtain ⟨faster, slower⟩ := paced_fastSubflow adm nonneg reach record
        unfold RttColumn.onPaths
        dsimp only
        split_ifs with less
        · exact faster less
        · exact slower (lt_of_le_of_ne (not_lt.mp less) (apart rfl))

theorem samplingDump_paths_main : ∃ s row,
    Reach (next .ofMain) (Paced (mainDelays 30)) (boot 0) s ∧
    (readRttDump integers milliseconds
      (dumpRttSamples integers.text milliseconds.text s.client.m_rttRoundStats))[0]? = some row ∧
    row (.realForwardDelay 0) = some 30 ∧ row (.rtt 1) = some 80 ∧
    row .forwardFastSubflowId = some 1 := by
  obtain ⟨s, reach, done⟩ := mainDelays_done 30
  obtain ⟨sampled, -⟩ := paced_outcome Config.ofMain_admissible (Int.le_refl 0) reach done
  obtain ⟨length, tells⟩ := samplingDump_paths integers milliseconds
    Config.ofMain_admissible (Int.le_refl 0) reach
  have some : 0 < Config.ofMain.sampleRTTmaxRounds.toNat := by decide
  rw [← sampled, ← length] at some
  have get := List.getElem?_eq_getElem some
  exact ⟨s, _, reach, get, tells 0 _ get _ nofun, tells 0 _ get _ nofun,
    tells 0 _ get _ fun _ => by decide⟩

end Sys

end OwdPacing
