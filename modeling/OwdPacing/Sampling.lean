import OwdPacing.Replay

/-!
# RTT sampling rounds

What a finished RTT round has recorded, from the order in which the server
processed its two packets.
-/

namespace OwdPacing

open Container OWdClientBasic Round

/-- What holds at the start of every round, when the packets are in the network. -/
structure Started (cfg : Config) (ρ : Round) (c : OWdClientBasic) : Prop where
  number : c.roundsDone = ρ.number
  low : c.m_lowestRoundSeq = lowSeq ρ.number
  inflight : c.m_inflight.toNat = (ρ.plan cfg).length
  effects : c.effects = []
  bound : 2 * ρ.number + 2 < 2 ^ 32

/-- What holds at the start of an RTT round. -/
structure SamplingStarted (cfg : Config) (c : OWdClientBasic) : Prop where
  mode : c.m_currentMode = .RTTSampling
  first : c.m_owdRoundStats = []
  more : c.m_rttRoundStats.length < cfg.sampleRTTmaxRounds.toNat
  /-- The fast subflow found so far is carried from round to round. -/
  carried : c.m_currentRoundStats.ForwardFastSubflow = (back c.m_rttRoundStats).ForwardFastSubflow
  known : (back c.m_rttRoundStats).ForwardFastSubflow = -1 ∨
    (back c.m_rttRoundStats).ForwardFastSubflow = 1

variable {cfg : Config} {r : Nat} {start : Int} {log : List Logged} {arrivals : List Arrival}
  {c : OWdClientBasic}

/-- The packet of an RTT round on a socket. -/
def onSocket (r : Nat) (sock : Socket) : PacketTag := ⟨r, sock⟩

/-- The echo on a socket, of an RTT round. -/
theorem Round.Echoes.sampling {a : Arrival} (h : Echoes cfg ⟨r, .sampling, start⟩ log arrivals)
    (mem : a ∈ arrivals) :
    a.tag = onSocket r a.sock ∧ a.seqTs.receiverTs = start ∧ a.seqTs.senderTs = a.servedAt ∧
      a.seqTs.seq = echoSeq ⟨r, .sampling, start⟩ (log.map Logged.tag) a.tag := by
  obtain ⟨call, planned, tag, sock, echo⟩ := h.fromPlan a mem
  rw [tag, sock]
  rcases mem_plan_sampling.mp planned with rfl | rfl
  · exact ⟨rfl, echo.receiverTs, echo.senderTs, echo.seq⟩
  · exact ⟨rfl, echo.receiverTs, echo.senderTs, echo.seq⟩

theorem Round.Echoes.sampling_onlyOn {a : Arrival}
    (h : Echoes cfg ⟨r, .sampling, start⟩ log arrivals) (mem : a ∈ arrivals) :
    OnlyOn arrivals a := by
  intro x memX same
  refine h.eq_of_tag mem memX ?_
  rw [(h.sampling memX).1, (h.sampling mem).1, same]

theorem Round.AllEchoes.sampling_exists (h : AllEchoes cfg ⟨r, .sampling, start⟩ log arrivals)
    (sock : Socket) : ∃ a ∈ arrivals, a.sock = sock := by
  have call : ∃ call ∈ plan cfg ⟨r, .sampling, start⟩, call.tag = onSocket r sock := by
    revert sock
    rw [Fin.forall_fin_two]
    exact ⟨⟨_, mem_plan_sampling.mpr (.inl rfl), rfl⟩, ⟨_, mem_plan_sampling.mpr (.inr rfl), rfl⟩⟩
  obtain ⟨call, planned, tag⟩ := call
  obtain ⟨a, mem, same⟩ := h.complete call planned
  refine ⟨a, mem, ?_⟩
  have : onSocket r a.sock = onSocket r sock := by rw [← (h.sampling mem).1, same, tag]
  exact Fin.val_injective (congrArg PacketTag.index this)

/-- The socket whose packet the server processed first is `sock`. -/
def FirstServed (served : List PacketTag) (r : Nat) (sock : Socket) : Prop :=
  Before served (onSocket r sock) (onSocket r sock.other)

instance (served : List PacketTag) (r : Nat) (sock : Socket) :
    Decidable (FirstServed served r sock) := inferInstanceAs (Decidable (Before _ _ _))

/-- Only the packet on socket 1 can be answered with the number before the
round's lowest, and it is exactly when the server processed it first. -/
theorem Round.AllEchoes.fresh_iff (h : AllEchoes cfg ⟨r, .sampling, start⟩ log arrivals)
    {a : Arrival} (mem : a ∈ arrivals) :
    a.seqTs.seq + 1 = lowSeq r ↔ a.sock = 1 ∧ FirstServed (log.map Logged.tag) r 1 := by
  obtain ⟨tag, -, -, seq⟩ := h.sampling mem
  have served : ∀ sock, onSocket r sock ∈ log.map Logged.tag := by
    intro sock
    obtain ⟨x, memX, rfl⟩ := h.sampling_exists sock
    rw [← (h.sampling memX).1]
    exact h.mem_served memX
  have earlier : (∃ earlier ∈ log.map Logged.tag, earlier.round = r ∧
      Before (log.map Logged.tag) earlier (onSocket r 1)) ↔
      ¬ FirstServed (log.map Logged.tag) r 1 := by
    have ne : onSocket r 1 ≠ onSocket r 0 := by simp [onSocket]
    constructor
    · rintro ⟨_, logged, round, before⟩
      obtain ⟨x, memX, rfl⟩ := List.mem_map.mp logged
      obtain ⟨call, planned, same⟩ := h.planned x memX round
      rw [← same] at before
      rcases mem_plan_sampling.mp planned with rfl | rfl
      · exact before.asymm
      · exact absurd before (Nat.lt_irrefl _)
    · intro notFirst
      refine ⟨_, served 0, rfl, ?_⟩
      exact (before_or_before (served 1) ne).resolve_left notFirst
  have next : lowSeq r + 1 + 1 ≠ lowSeq r := by
    rw [UInt32.add_assoc, Ne, UInt32.add_eq_left]
    decide
  rw [seq, tag]
  rcases a.sock.eq_or_eq_other 0 with zero | one
  · have low : onSocket r a.sock ≠ high ⟨r, .sampling, start⟩ := by
      rw [zero]; simp [onSocket, high, Round.tag]
    have ne : a.sock ≠ 1 := by rw [zero]; decide
    exact iff_of_false (echoSeq_add_one_ne low) fun both => ne both.1
  · have isHigh : onSocket r a.sock = high ⟨r, .sampling, start⟩ := by rw [one]; rfl
    have isOne : a.sock = 1 := one
    rw [echoSeq, if_pos isHigh]
    change (if (∃ earlier ∈ log.map Logged.tag, earlier.round = r ∧
      Before (log.map Logged.tag) earlier (onSocket r 1)) then lowSeq r + 1 else lowSeq r - 1) + 1 =
      lowSeq r ↔ _
    simp only [earlier, isOne, true_and]
    by_cases first : FirstServed (log.map Logged.tag) r 1
    · rw [if_neg (not_not_intro first)]
      exact iff_of_true (UInt32.sub_add_cancel ..) first
    · rw [if_pos first]
      exact iff_of_false next first

/-- **The fast subflow an RTT round records.**  When the server processed the
packet on socket 1 first the round finds it; else the round leaves what an
earlier round has found, which is socket 1 or nothing. -/
theorem sampled_forwardFastSubflow (started : Started cfg ⟨r, .sampling, start⟩ c)
    (sampling : SamplingStarted cfg c) (h : AllEchoes cfg ⟨r, .sampling, start⟩ log arrivals) :
    (replay .sampling arrivals c).m_currentRoundStats.ForwardFastSubflow =
      if FirstServed (log.map Logged.tag) r 1 then 1
      else (back c.m_rttRoundStats).ForwardFastSubflow := by
  have onlyOne : ∀ x ∈ arrivals, x.seqTs.seq + 1 = c.m_lowestRoundSeq → x.sock = 1 := by
    intro x mem fresh
    rw [started.low] at fresh
    exact ((h.fresh_iff mem).mp fresh).1
  have found : (∃ x ∈ arrivals, x.seqTs.seq + 1 = c.m_lowestRoundSeq) ↔
      FirstServed (log.map Logged.tag) r 1 := by
    rw [started.low]
    constructor
    · rintro ⟨x, mem, fresh⟩
      exact ((h.fresh_iff mem).mp fresh).2
    · intro first
      obtain ⟨x, mem, one⟩ := h.sampling_exists 1
      exact ⟨x, mem, (h.fresh_iff mem).mpr ⟨one, first⟩⟩
  rw [replay_sampling_forwardFastSubflow 1 onlyOne]
  · simp only [found, sampling.carried]
    rfl
  · rw [sampling.carried]
    exact sampling.known

/-- The record of an RTT round measures the round's packet on each socket. -/
theorem sampled_measures (h : AllEchoes cfg ⟨r, .sampling, start⟩ log arrivals) (sock : Socket) :
    ∃ a ∈ arrivals, a.tag = onSocket r sock ∧ a.sock = sock ∧ a.seqTs.senderTs = a.servedAt ∧
      a.seqTs.receiverTs = start ∧
      Measures (replay .sampling arrivals c).m_currentRoundStats sock a := by
  obtain ⟨a, mem, rfl⟩ := h.sampling_exists sock
  obtain ⟨tag, sent, served, -⟩ := h.sampling mem
  exact ⟨a, mem, tag, rfl, served, sent,
    replay_sampling_measures mem (h.sampling_onlyOn mem)⟩

end OwdPacing
