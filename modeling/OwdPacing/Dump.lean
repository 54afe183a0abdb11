import OwdPacing.Client
import OwdPacing.Text.Csv

/-!
# The CSV dump of the OWD records

`DumpOwdSamples` as it writes to the stream, the table of columns that its header
line announces, and the reader of the dump: whatever estimates a record withholds,
its line has a field for every column, and each column is read back from the field
below its name.
-/

namespace OwdPacing

open Csv

/-- The characters written to a stream. -/
abbrev Text := List Char

/-- `std::endl`. -/
abbrev endl : Text := ['\n']

namespace Config

variable (cfg : Config)

/-- `MicroSeconds (us)`, for `us` not negative: the parameter is unsigned, and the
dump converts halves of round-trip times, which are not negative. -/
def microSeconds (us : Int) : Int := (us * cfg.ticksPerMs).tdiv 1000

/-- `Time::GetMicroSeconds`. -/
def getMicroSeconds (t : Int) : Int := (t * 1000).tdiv cfg.ticksPerMs

end Config

/-! ## The stream -/

/-- The header line of `DumpOwdSamples`, without its end. -/
def dumpHeader : Text :=
  "roundId,rtt0,rtt1,realForwardOwd0,realForwardOwd1,realReverseOwd0,realReverseOwd1,".toList
    ++ "forwardFastSubflowId,estimatedForwardOwd0,estimatedForwardOwd1,".toList
    ++ "estimatedForwardDelta ".toList
    ++ ",halfRtt0,halfRtt1".toList
    ++ ",ReverseFastSubflowId,estimatedReverseOwd0,estimatedReverseOwd1,".toList
    ++ "EstimatedReverseDelta".toList

/-- One pass of the loop of `DumpOwdSamples`, for the record `it` at `distance` from the
first one; `int` and `time` print an integer and a time `To (unit)`. -/
def dumpSample (cfg : Config) (int time : Int → Text) (distance : Nat) (it : RoundStats) : Text :=
  int distance
    ++ ",".toList ++ time (it.rtt 0)
    ++ ",".toList ++ time (it.rtt 1)
    ++ ",".toList ++ time (it.RealForwardDelay 0)
    ++ ",".toList ++ time (it.RealForwardDelay 1)
    ++ ",".toList ++ time (it.RealReverseDelay 0)
    ++ ",".toList ++ time (it.RealReverseDelay 1)
    ++ (if 0 ≤ it.ForwardFastSubflow then
          ",".toList ++ int it.ForwardFastSubflow
            -- a time is positive exactly when it is so in milliseconds
            ++ (if 0 < it.EstimatedForwardDelay 0 then
                  ",".toList ++ time (it.EstimatedForwardDelay 0)
                    ++ ",".toList ++ time (it.EstimatedForwardDelay 1)
                else
                  ",,".toList)
            ++ ",".toList ++ time it.EstimatedForwardDeltaOWD
        else
          ",,,,".toList)
    ++ ",".toList ++ time (cfg.microSeconds ((cfg.getMicroSeconds (it.rtt 0)).tdiv 2))
    ++ ",".toList ++ time (cfg.microSeconds ((cfg.getMicroSeconds (it.rtt 1)).tdiv 2))
    ++ (if 0 ≤ it.ReverseFastSubflow then
          ",".toList ++ int it.ReverseFastSubflow
            ++ ",".toList ++ time (it.EstimatedReverseDelay 0)
            ++ ",".toList ++ time (it.EstimatedReverseDelay 1)
            ++ ",".toList ++ time it.EstimatedReverseDeltaOWD
        else
          ",,,,".toList)
    ++ endl

/-- `OWDHost::DumpOwdSamples`: what it writes for the records of `m_owdRoundStats`. -/
def dumpOwdSamples (cfg : Config) (int time : Int → Text) (samples : List RoundStats) : Text :=
  dumpHeader ++ endl
    ++ samples.zipIdx.flatMap fun (it, distance) => dumpSample cfg int time distance it

/-! ## The table -/

/-- The columns of the dump. -/
inductive Column
  | roundId
  | rtt (path : Socket)
  | realForwardOwd (path : Socket)
  | realReverseOwd (path : Socket)
  | forwardFastSubflowId
  | estimatedForwardOwd (path : Socket)
  | estimatedForwardDelta
  | halfRtt (path : Socket)
  | reverseFastSubflowId
  | estimatedReverseOwd (path : Socket)
  | estimatedReverseDelta
  deriving DecidableEq

namespace Column

/-- The columns from left to right. -/
def all : List Column :=
  [roundId, rtt 0, rtt 1, realForwardOwd 0, realForwardOwd 1, realReverseOwd 0, realReverseOwd 1,
    forwardFastSubflowId, estimatedForwardOwd 0, estimatedForwardOwd 1, estimatedForwardDelta,
    halfRtt 0, halfRtt 1, reverseFastSubflowId, estimatedReverseOwd 0, estimatedReverseOwd 1,
    estimatedReverseDelta]

/-- The name of a column in the header line. -/
def name : Column → Text
  | roundId => "roundId".toList
  | rtt 0 => "rtt0".toList
  | rtt 1 => "rtt1".toList
  | realForwardOwd 0 => "realForwardOwd0".toList
  | realForwardOwd 1 => "realForwardOwd1".toList
  | realReverseOwd 0 => "realReverseOwd0".toList
  | realReverseOwd 1 => "realReverseOwd1".toList
  | forwardFastSubflowId => "forwardFastSubflowId".toList
  | estimatedForwardOwd 0 => "estimatedForwardOwd0".toList
  | estimatedForwardOwd 1 => "estimatedForwardOwd1".toList
  -- the blank belongs to the name
  | estimatedForwardDelta => "estimatedForwardDelta ".toList
  | halfRtt 0 => "halfRtt0".toList
  | halfRtt 1 => "halfRtt1".toList
  | reverseFastSubflowId => "ReverseFastSubflowId".toList
  | estimatedReverseOwd 0 => "estimatedReverseOwd0".toList
  | estimatedReverseOwd 1 => "estimatedReverseOwd1".toList
  | estimatedReverseDelta => "EstimatedReverseDelta".toList

/-- What a column says of a record. -/
def value (cfg : Config) (distance : Nat) (it : RoundStats) : Column → Int
  | roundId => distance
  | rtt path => it.rtt path
  | realForwardOwd path => it.RealForwardDelay path
  | realReverseOwd path => it.RealReverseDelay path
  | forwardFastSubflowId => it.ForwardFastSubflow
  | estimatedForwardOwd path => it.EstimatedForwardDelay path
  | estimatedForwardDelta => it.EstimatedForwardDeltaOWD
  | halfRtt path => cfg.microSeconds ((cfg.getMicroSeconds (it.rtt path)).tdiv 2)
  | reverseFastSubflowId => it.ReverseFastSubflow
  | estimatedReverseOwd path => it.EstimatedReverseDelay path
  | estimatedReverseDelta => it.EstimatedReverseDeltaOWD

/-- When a column says something of a record: the other fields are left blank. -/
def Present (it : RoundStats) : Column → Prop
  | forwardFastSubflowId | estimatedForwardDelta => 0 ≤ it.ForwardFastSubflow
  | estimatedForwardOwd _ => 0 ≤ it.ForwardFastSubflow ∧ 0 < it.EstimatedForwardDelay 0
  | reverseFastSubflowId | estimatedReverseOwd _ | estimatedReverseDelta =>
      0 ≤ it.ReverseFastSubflow
  | roundId | rtt _ | realForwardOwd _ | realReverseOwd _ | halfRtt _ => True

instance (it : RoundStats) : DecidablePred (Present it)
  | forwardFastSubflowId | estimatedForwardDelta => inferInstanceAs (Decidable (_ ≤ _))
  | estimatedForwardOwd _ => inferInstanceAs (Decidable (_ ∧ _))
  | reverseFastSubflowId | estimatedReverseOwd _ | estimatedReverseDelta =>
      inferInstanceAs (Decidable (_ ≤ _))
  | roundId | rtt _ | realForwardOwd _ | realReverseOwd _ | halfRtt _ =>
      inferInstanceAs (Decidable True)

/-- The printer of a column: `int` for the round number and the subflow ids. -/
def printer (int time : Printer Int ',' '\n') : Column → Printer Int ',' '\n'
  | roundId | forwardFastSubflowId | reverseFastSubflowId => int
  | _ => time

/-- The field of a record in a column. -/
def cell (cfg : Config) (int time : Printer Int ',' '\n') (distance : Nat) (it : RoundStats)
    (c : Column) : Text :=
  shown (c.Present it) ((c.printer int time).text (c.value cfg distance it))

theorem mem_all (c : Column) : c ∈ all := by
  cases c with
  | rtt path | realForwardOwd path | realReverseOwd path | estimatedForwardOwd path
  | halfRtt path | estimatedReverseOwd path => revert path; decide
  | _ => decide

/-- No two columns have the same name. -/
theorem eq_of_name_eq : ∀ c ∈ all, ∀ d ∈ all, d.name = c.name → d = c := by decide +kernel

theorem name_clean : ∀ c ∈ all, ',' ∉ c.name ∧ '\n' ∉ c.name := by decide +kernel

end Column

theorem dumpHeader_eq : dumpHeader = line ',' (Column.all.map Column.name) := by decide +kernel

theorem newline_not_mem_dumpHeader : '\n' ∉ dumpHeader := by
  rw [dumpHeader_eq]
  refine not_mem_line (by decide) fun f mem => ?_
  obtain ⟨c, inAll, rfl⟩ := List.mem_map.mp mem
  exact (Column.name_clean c inAll).2

theorem fields_dumpHeader : fields ',' dumpHeader = Column.all.map Column.name := by
  rw [dumpHeader_eq]
  refine fields_line (by decide) fun f mem => ?_
  obtain ⟨c, inAll, rfl⟩ := List.mem_map.mp mem
  exact (Column.name_clean c inAll).1

-- the columns that `owd.plot` draws, by number
example : [4, 9, 12, 5, 10, 13].map (fun n => Column.all[n - 1]?) =
    [some (.realForwardOwd 0), some (.estimatedForwardOwd 0), some (.halfRtt 0),
      some (.realForwardOwd 1), some (.estimatedForwardOwd 1), some (.halfRtt 1)] := by decide

-- the columns that `delta.plot` draws, by number
example : [5, 4, 7, 6, 11, 17].map (fun n => Column.all[n - 1]?) =
    [some (.realForwardOwd 1), some (.realForwardOwd 0), some (.realReverseOwd 1),
      some (.realReverseOwd 0), some .estimatedForwardDelta, some .estimatedReverseDelta] := by
  decide

/-! ## The lines of the records -/

/-- The line of a record, without its end. -/
def sampleLine (cfg : Config) (int time : Printer Int ',' '\n') (sample : RoundStats × Nat) :
    Text :=
  line ',' (Column.all.map (Column.cell cfg int time sample.2 sample.1))

section Samples

variable {cfg : Config} {int time : Printer Int ',' '\n'} {distance : Nat} {it : RoundStats}

theorem newline_not_mem_sampleLine (sample : RoundStats × Nat) :
    '\n' ∉ sampleLine cfg int time sample := by
  refine not_mem_line (by decide) fun f mem => ?_
  obtain ⟨c, -, rfl⟩ := List.mem_map.mp mem
  exact not_mem_shown ((c.printer int time).eol_not_mem _)

theorem fields_sampleLine (sample : RoundStats × Nat) :
    fields ',' (sampleLine cfg int time sample) =
      Column.all.map (Column.cell cfg int time sample.2 sample.1) := by
  refine fields_line (List.cons_ne_nil _ _) fun f mem => ?_
  obtain ⟨c, -, rfl⟩ := List.mem_map.mp mem
  exact not_mem_shown ((c.printer int time).sep_not_mem _)

/-- Whatever a record withholds, the commas of its line are those between the columns. -/
theorem dumpSample_eq : dumpSample cfg int.text time.text distance it =
    sampleLine cfg int time (it, distance) ++ ['\n'] := by
  have comma : ",".toList = [','] := rfl
  have two : ",,".toList = [',', ','] := rfl
  have four : ",,,,".toList = [',', ',', ',', ','] := rfl
  unfold dumpSample sampleLine Column.all
  simp only [List.map_cons, List.map_nil, line_cons_cons, line_singleton, comma, two, four]
  -- one case for each way through the three conditions of the source
  by_cases forward : 0 ≤ it.ForwardFastSubflow <;>
    by_cases positive : 0 < it.EstimatedForwardDelay 0 <;>
    by_cases reverse : 0 ≤ it.ReverseFastSubflow <;>
    simp [Column.cell, shown, Column.Present, Column.value, Column.printer, forward, positive,
      reverse]

/-- The dump is the header line and a line for each record. -/
theorem dumpOwdSamples_eq (samples : List RoundStats) :
    dumpOwdSamples cfg int.text time.text samples =
      unlines '\n' (dumpHeader :: samples.zipIdx.map (sampleLine cfg int time)) := by
  rw [dumpOwdSamples, unlines, List.flatMap_cons, List.flatMap_map]
  exact congrArg (dumpHeader ++ endl ++ ·) (List.flatMap_congr fun sample _ => dumpSample_eq)

theorem lines_dumpOwdSamples (samples : List RoundStats) :
    lines '\n' (dumpOwdSamples cfg int.text time.text samples) =
      dumpHeader :: samples.zipIdx.map (sampleLine cfg int time) := by
  rw [dumpOwdSamples_eq]
  refine lines_unlines fun l mem => ?_
  rcases List.mem_cons.mp mem with header | mem
  · rw [header]
    exact newline_not_mem_dumpHeader
  · obtain ⟨sample, -, rfl⟩ := List.mem_map.mp mem
    exact newline_not_mem_sampleLine sample

/-- The field of a column is the one below its name. -/
theorem column_sampleLine (sample : RoundStats × Nat) (c : Column) :
    column (fields ',' dumpHeader) (fields ',' (sampleLine cfg int time sample)) c.name =
      some (c.cell cfg int time sample.2 sample.1) := by
  rw [fields_dumpHeader, fields_sampleLine]
  exact column_map _ c.mem_all (Column.eq_of_name_eq c c.mem_all)

end Samples

/-! ## The reader -/

/-- A reader of the dump: for each record line, what each column says, `none` where its
field is blank. It finds the fields by the position of their names in the header. -/
noncomputable def readDump (int time : Printer Int ',' '\n') (text : Text) :
    List (Column → Option Int) :=
  match lines '\n' text with
  | [] => []
  | header :: samples => samples.map fun sample c =>
      (column (fields ',' header) (fields ',' sample) c.name).bind (c.printer int time).read

/-- **The dump can be read back by column.**  It is one header line and one line for
each record, every line has a field for each column of the header, and the reader gets
back, in order, what each column says of each record that does not withhold it. -/
theorem dumpOwdSamples_read (cfg : Config) (int time : Printer Int ',' '\n')
    (samples : List RoundStats) :
    ∃ sampleLines : List Text,
      dumpOwdSamples cfg int.text time.text samples = unlines '\n' (dumpHeader :: sampleLines) ∧
      lines '\n' (dumpOwdSamples cfg int.text time.text samples) = dumpHeader :: sampleLines ∧
      sampleLines.length = samples.length ∧
      (∀ sample ∈ sampleLines, (fields ',' sample).length = (fields ',' dumpHeader).length) ∧
      readDump int time (dumpOwdSamples cfg int.text time.text samples) =
        samples.zipIdx.map fun (it, distance) c =>
          if c.Present it then some (c.value cfg distance it) else none := by
  refine ⟨_, dumpOwdSamples_eq samples, lines_dumpOwdSamples samples, ?_, fun sample mem => ?_, ?_⟩
  · rw [List.length_map, List.length_zipIdx]
  · obtain ⟨sample, -, rfl⟩ := List.mem_map.mp mem
    rw [fields_sampleLine, fields_dumpHeader, List.length_map, List.length_map]
  · rw [readDump, lines_dumpOwdSamples]
    dsimp only
    rw [List.map_map]
    refine List.map_congr_left fun sample _ => funext fun c => ?_
    dsimp only [Function.comp_apply]
    rw [column_sampleLine]
    exact (c.printer int time).read_shown _ _

/-- How the library prints integers. -/
def integers : Printer Int ',' '\n' :=
  .decimal [] [] (by decide) (by decide) (by decide) (by decide) (by decide)

/-- How the library prints times in milliseconds when a tick is a millisecond. -/
def milliseconds : Printer Int ',' '\n' :=
  .decimal ['+'] ['.', '0'] (by decide) (by decide) (by decide) (by decide) (by decide)

/-- A record without estimates and one with all of them. -/
def twoSamples : List RoundStats :=
  let measured : RoundStats := { RoundStats.new with
    rtt := fun path => if path = 0 then 30 else 50
    RealForwardDelay := fun path => if path = 0 then 10 else 30
    RealReverseDelay := fun _ => 20 }
  [measured, { measured with
    ForwardFastSubflow := 0
    EstimatedForwardDelay := fun path => if path = 0 then 15 else 35
    EstimatedForwardDeltaOWD := 20
    ReverseFastSubflow := 0
    EstimatedReverseDelay := fun _ => 15 }]

theorem dumpOwdSamples_read_twoSamples :
    dumpOwdSamples (.constructed 1 Nat.one_pos) integers.text milliseconds.text twoSamples =
      dumpHeader ++ endl
        ++ ("0,+30.0,+50.0,+10.0,+30.0,+20.0,+20.0,,,,,+15.0,+25.0,,,,\n".toList
          ++ "1,+30.0,+50.0,+10.0,+30.0,+20.0,+20.0,0,+15.0,+35.0,+20.0,+15.0,+25.0,".toList
          ++ "0,+15.0,+15.0,+0.0\n".toList) ∧
    readDump integers milliseconds
        (dumpOwdSamples (.constructed 1 Nat.one_pos) integers.text milliseconds.text twoSamples) =
      twoSamples.zipIdx.map fun (it, distance) c =>
        if c.Present it then some (c.value (.constructed 1 Nat.one_pos) distance it) else none := by
  obtain ⟨-, -, -, -, -, read⟩ :=
    dumpOwdSamples_read (.constructed 1 Nat.one_pos) integers milliseconds twoSamples
  exact ⟨congrArg (dumpHeader ++ endl ++ ·) (by decide +kernel), read⟩

end OwdPacing
