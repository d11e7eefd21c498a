import SipxClstr.Simulation.Weather
import SipxClstr.Reactive.Journal

/-!
# Kills and restarts

A node that was killed is handed nothing and does nothing until it is restarted.  The process a
restart begins is told of its incarnation before anything else, and nothing that its
predecessors sent, set or were owed reaches it, as long as a restart finds nothing queued for the
node it restarts.
-/

namespace SipxClstr.Simulation

open SipxClstr.Sip Reactive Machine

/-! ## What a log says of the processes -/

section Logs

variable {M : Type}

/-- The node is restarted. -/
def Record.restarts (node : NodeId) : Record M → Bool
  | .applied (.restartNode other) => other = node
  | _ => false

def downAfter (node : NodeId) (down : Bool) : Record M → Bool
  | .applied (.killNode other) => down || other = node
  | .applied (.restartNode other) => down && other ≠ node
  | _ => down

/-- The node was killed, and has not been restarted since. -/
def down (log : List (Record M)) (node : NodeId) : Bool :=
  log.foldl (downAfter node) false

/-- Which run of the node this is; nodes are born at the first. -/
def incarnation (log : List (Record M)) (node : NodeId) : Nat :=
  log.countP (Record.restarts node) + 1

/-- What has happened since the node was last restarted. -/
def currentRun (log : List (Record M)) (node : NodeId) : List (Record M) :=
  log.foldl (fun run record => if record.restarts node then [] else run ++ [record]) []

/-- The current run of the node has been handed something. -/
def Spoken (log : List (Record M)) (node : NodeId) : Prop :=
  ∃ now input write, .called now node input write ∈ currentRun log node

/-- A write was asked for. -/
def Wrote (log : List (Record M)) (sender receiver : NodeId) (write : Nat) : Prop :=
  ∃ due name summary, .traced due sender name (.sent receiver summary) (some write) ∈ log

/-- What is handed to a node is about its current run: the message was sent in it, and in the
current run of the sender; the timer was set in it; the write was asked for in it; the connection
was closed in it. -/
def Evidence (past : List (Record M)) (node : NodeId) : Input M → Option Nat → Prop
  | .message sender _, some write =>
      Wrote (currentRun past node) sender node write ∧
        Wrote (currentRun past sender) sender node write
  | .timer timer, _ => ∃ now after, .performed now node (.setTimer timer after) ∈
      currentRun past node
  | .transportError peer, some write => Wrote (currentRun past node) node peer write
  | .transportError peer, none => ∃ fault,
      (fault = .reconnect node peer ∨ fault = .reconnect peer node ∨ fault = .restartNode peer) ∧
        .applied fault ∈ currentRun past node
  | .connected peer, _ => ∃ fault, (fault = .reconnect node peer ∨ fault = .reconnect peer node) ∧
      .applied fault ∈ currentRun past node
  | .writeStalled peer, some write => Wrote (currentRun past node) node peer write
  | .writeFlushed peer, some write => Wrote (currentRun past node) node peer write
  | _, _ => True

/-- An entry that respects the lives of the processes. -/
structure Isolated (past : List (Record M)) (entry : Record M) : Prop where
  /-- A node that is down is handed nothing. -/
  called : ∀ now node input write, entry = .called now node input write → down past node = false
  /-- A node that is down does nothing. -/
  performed : ∀ now node effect, entry = .performed now node effect → down past node = false
  /-- A process that was restarted is told so first. -/
  first : ∀ now node input write, entry = .called now node input write →
    1 < incarnation past node → ¬ Spoken past node → ∃ count, input = .restarted count
  /-- It is told once, and of a greater incarnation than any before. -/
  restarted : ∀ now node count write, entry = .called now node (.restarted count) write →
    count = incarnation past node ∧ ¬ Spoken past node ∧
      ∀ before earlier number, .called before node (.restarted earlier) number ∈ past →
        earlier < count
  /-- What it is handed is about its own run. -/
  evidence : ∀ now node input write, entry = .called now node input write →
    Evidence past node input write

/-- Neither a kill nor a restart. -/
def Record.Plain : Record M → Prop
  | .applied (.killNode _) => False
  | .applied (.restartNode _) => False
  | _ => True

/-- Neither an input nor an effect either. -/
def Record.Quiet : Record M → Prop
  | .called _ _ _ _ => False
  | .performed _ _ _ => False
  | record => record.Plain

variable {log : List (Record M)} {record : Record M} {node : NodeId}

theorem Record.Quiet.plain (quiet : record.Quiet) : record.Plain := by
  cases record with
  | called now node input write => exact quiet.elim
  | performed now node effect => exact quiet.elim
  | _ => exact quiet

theorem Record.Quiet.isolated (quiet : record.Quiet) (past : List (Record M)) :
    Isolated past record := by
  constructor
  all_goals
    intros
    subst record
    exact quiet.elim

theorem down_concat : down (log ++ [record]) node = downAfter node (down log node) record := by
  rw [down, List.foldl_append]
  rfl

theorem incarnation_concat : incarnation (log ++ [record]) node =
    if record.restarts node then incarnation log node + 1 else incarnation log node := by
  rw [incarnation, List.countP_append, List.countP_singleton]
  split
  · rw [incarnation, Nat.add_right_comm]
  · rfl

theorem currentRun_concat : currentRun (log ++ [record]) node =
    if record.restarts node then [] else currentRun log node ++ [record] := by
  rw [currentRun, List.foldl_append]
  rfl

theorem Record.Plain.not_restarts (plain : record.Plain) (node : NodeId) :
    record.restarts node = false := by
  cases record with
  | applied fault =>
      cases fault with
      | restartNode other => exact plain.elim
      | _ => rfl
  | _ => rfl

theorem Record.Plain.down (plain : record.Plain) :
    down (log ++ [record]) node = Simulation.down log node := by
  rw [down_concat]
  cases record with
  | applied fault =>
      cases fault with
      | killNode other => exact plain.elim
      | restartNode other => exact plain.elim
      | _ => rfl
  | _ => rfl

theorem Record.Plain.incarnation (plain : record.Plain) :
    incarnation (log ++ [record]) node = Simulation.incarnation log node := by
  rw [incarnation_concat, plain.not_restarts, if_neg Bool.false_ne_true]

theorem Record.Plain.currentRun (plain : record.Plain) :
    currentRun (log ++ [record]) node = Simulation.currentRun log node ++ [record] := by
  rw [currentRun_concat, plain.not_restarts, if_neg Bool.false_ne_true]

theorem Record.Plain.spoken_iff (plain : record.Plain) : Spoken (log ++ [record]) node ↔
    Spoken log node ∨ ∃ now input write, record = .called now node input write := by
  simp only [Spoken, plain.currentRun, List.mem_append, List.mem_singleton]
  constructor
  · rintro ⟨now, input, write, member | rfl⟩
    · exact .inl ⟨now, input, write, member⟩
    · exact .inr ⟨now, input, write, rfl⟩
  · rintro (⟨now, input, write, member⟩ | ⟨now, input, write, rfl⟩)
    · exact ⟨now, input, write, .inl member⟩
    · exact ⟨now, input, write, .inr rfl⟩

/-- Every run goes on. -/
def RunsOn (log behind : List (Record M)) : Prop :=
  ∀ node record, record ∈ currentRun log node → record ∈ currentRun behind node

theorem Record.Plain.runsOn (plain : record.Plain) (log : List (Record M)) :
    RunsOn log (log ++ [record]) := by
  intro node other member
  rw [plain.currentRun]
  exact List.mem_append_left _ member

theorem RunsOn.append {extra : List (Record M)} (plain : ∀ record ∈ extra, record.Plain)
    (log : List (Record M)) : RunsOn log (log ++ extra) := by
  induction extra generalizing log with
  | nil =>
      rw [List.append_nil]
      exact fun _ _ member => member
  | cons first rest ih =>
      rw [List.append_cons]
      intro node record member
      apply ih fun other isIn => plain other (List.mem_cons_of_mem _ isIn)
      exact (plain first List.mem_cons_self).runsOn log node record member

/-- The log goes on without a kill or a restart. -/
def Continues (log behind : List (Record M)) : Prop :=
  ∃ extra, behind = log ++ extra ∧ ∀ record ∈ extra, record.Plain

theorem Continues.concat (plain : record.Plain) (log : List (Record M)) :
    Continues log (log ++ [record]) :=
  ⟨[record], rfl, by simpa using plain⟩

theorem Continues.trans {last behind : List (Record M)} (first : Continues log behind)
    (second : Continues behind last) : Continues log last := by
  rcases first with ⟨before, rfl, plain⟩
  rcases second with ⟨extra, rfl, goesOn⟩
  refine ⟨before ++ extra, List.append_assoc _ _ _, ?_⟩
  intro record member
  rcases List.mem_append.mp member with early | late
  · exact plain record early
  · exact goesOn record late

theorem Continues.runsOn {behind : List (Record M)} (continues : Continues log behind) :
    RunsOn log behind := by
  rcases continues with ⟨extra, rfl, plain⟩
  exact .append plain log

theorem Continues.incarnation {behind : List (Record M)} (continues : Continues log behind) :
    Simulation.incarnation behind node = Simulation.incarnation log node := by
  rcases continues with ⟨extra, rfl, plain⟩
  have none : extra.countP (Record.restarts node) = 0 := by
    rw [List.countP_eq_zero]
    intro record member
    rw [(plain record member).not_restarts]
    exact Bool.false_ne_true
  rw [Simulation.incarnation, List.countP_append, none]
  rfl

theorem Wrote.mono {runs other : List (Record M)} {sender receiver write : Nat}
    (wrote : Wrote runs sender receiver write) (subset : ∀ record ∈ runs, record ∈ other) :
    Wrote other sender receiver write := by
  rcases wrote with ⟨due, name, summary, member⟩
  exact ⟨due, name, summary, subset _ member⟩

/-- Evidence lasts as long as the node's run does, and for a message that of its sender. -/
theorem Evidence.mono {behind : List (Record M)} {input : Input M} {write : Option Nat}
    (evidence : Evidence log node input write)
    (own : ∀ record ∈ currentRun log node, record ∈ currentRun behind node)
    (others : ∀ sender message, input = .message sender message →
      ∀ record ∈ currentRun log sender, record ∈ currentRun behind sender) :
    Evidence behind node input write := by
  cases input with
  | message sender message =>
      cases write with
      | none => trivial
      | some write =>
          exact ⟨evidence.1.mono own, evidence.2.mono (others sender message rfl)⟩
  | timer timer =>
      rcases evidence with ⟨now, after, member⟩
      exact ⟨now, after, own _ member⟩
  | transportError peer =>
      cases write with
      | none =>
          rcases evidence with ⟨fault, known, member⟩
          exact ⟨fault, known, own _ member⟩
      | some write => exact Wrote.mono evidence own
  | connected peer =>
      rcases evidence with ⟨fault, known, member⟩
      exact ⟨fault, known, own _ member⟩
  | writeStalled peer =>
      cases write with
      | none => trivial
      | some write => exact Wrote.mono evidence own
  | writeFlushed peer =>
      cases write with
      | none => trivial
      | some write => exact Wrote.mono evidence own
  | started => trivial
  | restarted incarnation => trivial

theorem Sim.Written.quiet {now : SimTime} (written : Sim.Written now record) : record.Quiet := by
  cases written <;> trivial

end Logs

namespace Sim

variable {W : World} {sim next : Sim W} {silent : NodeId → Prop}

/-! ## The invariant -/

/-- What is queued is about the current runs of those it is for. -/
def Grounded (sim : Sim W) : Event → Prop
  | .deliver sender receiver _ connection write =>
      sender < sim.nodes.length ∧ connection ≤ sim.connections sender receiver ∧
        (receiver < sim.nodes.length → connection = sim.connections sender receiver →
          Wrote (currentRun sim.log receiver) sender receiver write ∧
            Wrote (currentRun sim.log sender) sender receiver write)
  | .breaks node peer write => Evidence sim.log node (.transportError peer) write
  | .notify node (.connected peer) => Evidence sim.log node (.connected peer) none
  | .notify node (.writeStalled peer write) => Evidence sim.log node (.writeStalled peer) (some write)
  | .notify node (.writeFlushed peer write) => Evidence sim.log node (.writeFlushed peer) (some write)
  | .notify node (.restarted count) => count = incarnation sim.log node ∧ 1 < count
  | .fault _ => True

/-- The event will be handed to the node, if it runs. -/
def Reaches (sim : Sim W) (node : NodeId) : Event → Prop
  | .deliver sender receiver _ connection _ =>
      receiver = node ∧ connection = sim.connections sender receiver
  | .breaks other _ _ => other = node
  | .notify other _ => other = node
  | .fault _ => False

/-- A write that is held was asked for in the current runs of both ends. -/
def HeldNow (sim : Sim W) (write : HeldWrite) : Prop :=
  write.sender < sim.nodes.length ∧
    Wrote (currentRun sim.log write.receiver) write.sender write.receiver write.write ∧
      Wrote (currentRun sim.log write.sender) write.sender write.receiver write.write

/-- A process is about to be told of its incarnation: it has not been handed anything, and
nothing comes before. -/
structure Waits (sim : Sim W) (node : NodeId) (notice : Scheduled Event) : Prop where
  unspoken : ¬ Spoken sim.log node
  now : notice.due ≤ sim.now
  timers : ∀ timer ∈ W.timers.live sim.timers, notice.due ≤ timer.2
  items : ∀ other ∈ sim.queue.heap, notice.due ≤ other.due
  first : ∀ other ∈ sim.queue.heap, sim.Reaches node other.payload →
    other = notice ∨ notice.Before other

/-- The processes are apart so far; `silent` are the nodes whose notice is in hand. -/
structure Separate (sim : Sim W) (silent : NodeId → Prop) : Prop where
  down : ∀ node, down sim.log node = sim.killed node
  incarnations : ∀ node, incarnation sim.log node = sim.restarts node + 1
  unstarted : sim.started = false → ∀ node, incarnation sim.log node = 1
  grounded : ∀ item ∈ sim.queue.heap, sim.Grounded item.payload
  held : ∀ write ∈ sim.held, sim.HeldNow write
  timers : ∀ timer ∈ W.timers.live sim.timers, ∃ now after,
    .performed now timer.1.1 (.setTimer timer.1.2 after) ∈ currentRun sim.log timer.1.1
  spoke : ∀ now node effect, .performed now node effect ∈ currentRun sim.log node →
    Spoken sim.log node
  waits : ∀ item ∈ sim.queue.heap, ∀ node count, item.payload = .notify node (.restarted count) →
    sim.Waits node item
  announced : ∀ node, ¬ silent node → sim.Runs node → 1 < incarnation sim.log node →
    Spoken sim.log node ∨
      ∃ item ∈ sim.queue.heap, ∃ count, item.payload = .notify node (.restarted count)
  told : ∀ now node count write, .called now node (.restarted count) write ∈ sim.log →
    count ≤ incarnation sim.log node ∧ (¬ Spoken sim.log node → count < incarnation sim.log node)
  isolated : Justified Isolated sim.log

/-- What is grounded stays so while the runs go on and no connection is taken back. -/
theorem Grounded.mono {event : Event} (grounded : sim.Grounded event)
    (length : next.nodes.length = sim.nodes.length)
    (connections : ∀ a b, sim.connections a b ≤ next.connections a b)
    (runsOn : RunsOn sim.log next.log)
    (incarnations : ∀ node, incarnation next.log node = incarnation sim.log node) :
    next.Grounded event := by
  cases event with
  | deliver sender receiver bytes connection write =>
      rcases grounded with ⟨isNode, known, wrote⟩
      refine ⟨length ▸ isNode, known.trans (connections _ _), ?_⟩
      intro inside current
      have same : connection = sim.connections sender receiver :=
        le_antisymm known (current ▸ connections sender receiver)
      rcases wrote (length ▸ inside) same with ⟨own, others⟩
      exact ⟨own.mono (runsOn receiver), others.mono (runsOn sender)⟩
  | breaks node peer write =>
      have evidence : Evidence sim.log node (.transportError peer) write := grounded
      exact evidence.mono (runsOn node) (by simp)
  | fault fault => trivial
  | notify node notice =>
      cases notice with
      | connected peer =>
          have evidence : Evidence sim.log node (.connected peer) none := grounded
          exact evidence.mono (runsOn node) (by simp)
      | writeStalled peer write =>
          have evidence : Evidence sim.log node (.writeStalled peer) (some write) := grounded
          exact evidence.mono (runsOn node) (by simp)
      | writeFlushed peer write =>
          have evidence : Evidence sim.log node (.writeFlushed peer) (some write) := grounded
          exact evidence.mono (runsOn node) (by simp)
      | restarted count =>
          have known : count = incarnation sim.log node ∧ 1 < count := grounded
          rw [← incarnations] at known
          exact known

/-- What reaches a node by a connection that was not replaced reached it before. -/
theorem Reaches.of_le {event : Event} {node : NodeId} (reaches : next.Reaches node event)
    (connections : ∀ a b, sim.connections a b ≤ next.connections a b)
    (grounded : sim.Grounded event) : sim.Reaches node event := by
  cases event with
  | deliver sender receiver bytes connection write =>
      refine ⟨reaches.1, le_antisymm grounded.2.1 ?_⟩
      rw [reaches.2]
      exact connections _ _
  | breaks other peer write => exact reaches
  | fault fault => exact reaches
  | notify other notice => exact reaches

/-! ## One more entry -/

/-- An entry is written that is neither a kill nor a restart. -/
theorem Separate.write {silent' : NodeId → Prop} (separate : Separate sim silent)
    {nodes : List (SimNode W)} (length : nodes.length = sim.nodes.length)
    {record : Record W.Message} (plain : record.Plain) (isolated : Isolated sim.log record)
    (free : ∀ now node input write, record = .called now node input write →
      ∀ item ∈ sim.queue.heap, ∀ count, item.payload ≠ .notify node (.restarted count))
    (spoke : ∀ now node effect, record = .performed now node effect → Spoken sim.log node)
    (ends : ∀ node, silent node → silent' node ∨
      ∃ now input write, record = .called now node input write) :
    Separate { sim with nodes, log := sim.log ++ [record] } silent' := by
  have runsOn := plain.runsOn sim.log
  constructor
  · intro node
    rw [plain.down]
    exact separate.down node
  · intro node
    rw [plain.incarnation]
    exact separate.incarnations node
  · intro unstarted node
    rw [plain.incarnation]
    exact separate.unstarted unstarted node
  · intro item member
    exact (separate.grounded item member).mono length (fun _ _ => le_rfl) runsOn
      fun _ => plain.incarnation
  · intro write member
    rcases separate.held write member with ⟨isNode, own, others⟩
    exact ⟨length ▸ isNode, own.mono (runsOn _), others.mono (runsOn _)⟩
  · intro timer member
    rcases separate.timers timer member with ⟨now, after, isSet⟩
    exact ⟨now, after, runsOn _ _ isSet⟩
  · intro now node effect member
    rw [plain.currentRun, List.mem_append, List.mem_singleton] at member
    rw [plain.spoken_iff]
    left
    rcases member with earlier | same
    · exact separate.spoke now node effect earlier
    · exact spoke now node effect same.symm
  · intro item member node count isNotice
    have waits := separate.waits item member node count isNotice
    refine ⟨?_, waits.now, waits.timers, waits.items, waits.first⟩
    rw [plain.spoken_iff]
    rintro (spoken | ⟨now, input, write, called⟩)
    · exact waits.unspoken spoken
    · exact free now node input write called item member count isNotice
  · intro node loud runs greater
    rw [plain.incarnation] at greater
    rw [plain.spoken_iff]
    by_cases wasSilent : silent node
    · exact .inl (.inr ((ends node wasSilent).resolve_left loud))
    · have ran : sim.Runs node := ⟨runs.1, length ▸ runs.2⟩
      exact (separate.announced node wasSilent ran greater).imp_left .inl
  · intro now node count write member
    rw [plain.incarnation, plain.spoken_iff]
    rw [List.mem_append, List.mem_singleton] at member
    rcases member with earlier | same
    · rcases separate.told now node count write earlier with ⟨known, greater⟩
      exact ⟨known, fun unspoken => greater fun spoken => unspoken (.inl spoken)⟩
    · rcases isolated.restarted now node count write same.symm with ⟨current, -, -⟩
      exact ⟨current.le, fun unspoken => absurd (.inr ⟨now, _, write, same.symm⟩) unspoken⟩
  · exact separate.isolated.concat isolated

theorem Separate.quiet (separate : Separate sim silent) {record : Record W.Message}
    (quiet : record.Quiet) : Separate { sim with log := sim.log ++ [record] } silent := by
  apply separate.write rfl quiet.plain (quiet.isolated _)
  · rintro now node input write rfl
    exact quiet.elim
  · rintro now node effect rfl
    exact quiet.elim
  · exact fun _ => .inl

theorem Separate.traced (separate : Separate sim silent) (node : NodeId) (event : TraceEvent)
    (write : Option Nat) : Separate (sim.record node event write) silent :=
  separate.quiet trivial

/-- No notice was in hand. -/
theorem Separate.loud {silent' : NodeId → Prop} (separate : Separate sim silent)
    (loud : ∀ node, ¬ silent node) : Separate sim silent' :=
  { separate with announced := fun node _ => separate.announced node (loud node) }

/-- Something is queued, held or timed, and nothing is written down. -/
theorem Separate.change (separate : Separate sim silent)
    {links : NodeId → NodeId → Option Link} {queue : EventQueue Event} {timers : W.timers.Queue}
    {skew : NodeId → Option Nat} {notReading : NodeId → Bool} {held : List HeldWrite} {writes : Nat}
    (gains : Gains sim.now sim.queue queue)
    (grounded : ∀ item ∈ queue.heap, item ∈ sim.queue.heap ∨ sim.Grounded item.payload ∧
      ∀ node count, item.payload ≠ .notify node (.restarted count))
    (heldNow : ∀ write ∈ held, sim.HeldNow write)
    (timed : ∀ timer ∈ W.timers.live timers, timer ∈ W.timers.live sim.timers ∨
      sim.now ≤ timer.2 ∧ ∃ now after,
        .performed now timer.1.1 (.setTimer timer.1.2 after) ∈ currentRun sim.log timer.1.1) :
    Separate { sim with links, queue, timers, skew, notReading, held, writes } silent := by
  refine ⟨separate.down, separate.incarnations, separate.unstarted, ?_, heldNow, ?_,
    separate.spoke, ?_, ?_, separate.told, separate.isolated⟩
  · intro item member
    rcases grounded item member with stood | ⟨fresh, -⟩
    · exact (separate.grounded item stood).mono rfl (fun _ _ => le_rfl) (fun _ _ member => member)
        fun _ => rfl
    · exact fresh.mono rfl (fun _ _ => le_rfl) (fun _ _ member => member) fun _ => rfl
  · intro timer member
    rcases timed timer member with stood | ⟨-, isSet⟩
    · exact separate.timers timer stood
    · exact isSet
  · intro item member node count isNotice
    rcases grounded item member with stood | ⟨-, other⟩
    · have waits := separate.waits item stood node count isNotice
      refine ⟨waits.unspoken, waits.now, ?_, ?_, ?_⟩
      · intro timer isLive
        rcases timed timer isLive with earlier | ⟨later, -⟩
        · exact waits.timers timer earlier
        · exact waits.now.trans later
      · intro other isOther
        rcases gains.gained other isOther with earlier | ⟨later, -⟩
        · exact waits.items other earlier
        · exact waits.now.trans later
      · intro other isOther reaches
        rcases gains.gained other isOther with earlier | ⟨later, newer, -⟩
        · have reached : sim.Reaches node other.payload :=
            reaches.of_le (fun _ _ => le_rfl) (separate.grounded other earlier)
          exact waits.first other earlier reached
        · right
          rcases (waits.now.trans later).lt_or_eq with early | same
          · exact .inl early
          · exact .inr ⟨same, lt_of_lt_of_le (sim.queue.issued item stood) newer⟩
    · exact absurd isNotice (other node count)
  · intro node loud runs greater
    rcases separate.announced node loud runs greater with spoken | ⟨item, member, notice⟩
    · exact .inl spoken
    · exact .inr ⟨item, gains.kept item member, notice⟩

/-! ## Writes -/

/-- A link is decided by its policy, and nothing else changes. -/
theorem Separate.links (separate : Separate sim silent) (links : NodeId → NodeId → Option Link) :
    Separate { sim with links } silent :=
  separate.change .refl (fun _ => .inl) separate.held fun _ => .inl

/-- Timers are set or cleared. -/
theorem Separate.timed (separate : Separate sim silent) (timers : W.timers.Queue)
    (timed : ∀ timer ∈ W.timers.live timers, timer ∈ W.timers.live sim.timers ∨
      sim.now ≤ timer.2 ∧ ∃ now after,
        .performed now timer.1.1 (.setTimer timer.1.2 after) ∈ currentRun sim.log timer.1.1) :
    Separate { sim with timers } silent :=
  separate.change .refl (fun _ => .inl) separate.held timed

/-- Writes are held or released. -/
theorem Separate.holding (separate : Separate sim silent) {held : List HeldWrite}
    (heldNow : ∀ write ∈ held, sim.HeldNow write) : Separate { sim with held } silent :=
  separate.change .refl (fun _ => .inl) heldNow fun _ => .inl

/-- Something that is no notice of a restart is queued, and is grounded. -/
theorem Separate.scheduleAt (separate : Separate sim silent) (event : Event) {due : SimTime}
    (later : sim.now ≤ due) (noFault : event.isFault = false) (grounded : sim.Grounded event)
    (other : ∀ node count, event ≠ .notify node (.restarted count)) :
    Separate { sim with queue := sim.queue.scheduleAt due event } silent := by
  apply separate.change (.scheduleAt later noFault) _ separate.held fun _ => .inl
  intro item member
  rcases EventQueue.mem_scheduleAt.mp member with stood | rfl
  · exact .inl stood
  · exact .inr ⟨grounded, other⟩

/-- A write that both ends' current runs know of crosses its link. -/
theorem Separate.crossed (separate : Separate sim silent) {sender receiver write : Nat}
    {bytes : Bytes} {summary : Text} (isNode : sender < sim.nodes.length)
    (own : Wrote (currentRun sim.log receiver) sender receiver write)
    (others : Wrote (currentRun sim.log sender) sender receiver write)
    (crossed : Crossed sim sender receiver bytes summary write next) :
    Separate next silent := by
  have grounded : sim.Grounded (.deliver sender receiver bytes (sim.connections sender receiver)
      write) := ⟨isNode, le_rfl, fun _ _ => ⟨own, others⟩⟩
  cases crossed with
  | dropped link => exact (separate.links _).traced _ _ _
  | broken link =>
      exact (separate.links _).scheduleAt (.breaks sender receiver (some write)) le_rfl rfl others
        (by simp)
  | once link due _ _ later =>
      have queued := (separate.links (setPair sim.links sender receiver (some link))).scheduleAt
        (.deliver sender receiver bytes (sim.connections sender receiver) write) later rfl grounded
        (by simp)
      have written : (Record.crossed (M := W.Message) sender receiver write).Quiet := trivial
      exact queued.quiet written
  | twice link first second _ _ later =>
      have once := (separate.links (setPair sim.links sender receiver (some link))).scheduleAt
        (.deliver sender receiver bytes (sim.connections sender receiver) write) later.1 rfl
        grounded (by simp)
      have queued := once.scheduleAt
        (.deliver sender receiver bytes (sim.connections sender receiver) write) later.2 rfl
        grounded (by simp)
      have doubled : (Record.traced (M := W.Message) sim.now sender (sim.nameOf sender)
        (.duplicated receiver summary) (some write)).Quiet := trivial
      have written : (Record.crossed (M := W.Message) sender receiver write).Quiet := trivial
      have both := (queued.quiet doubled).quiet written
      simp only [List.append_assoc, List.cons_append, List.nil_append] at both
      exact both

theorem Posts.continues (posts : Posts sim next) : Continues sim.log next.log := by
  rcases posts.log with ⟨extra, isLog, written⟩
  exact ⟨extra, isLog, fun record member => (written record member).quiet.plain⟩

/-- What a node may be handed, if it runs. -/
structure Admits (sim : Sim W) (node : NodeId) (input : Input W.Message) (write : Option Nat) :
    Prop where
  free : ∀ item ∈ sim.queue.heap, ∀ count, item.payload ≠ .notify node (.restarted count)
  first : 1 < incarnation sim.log node → ¬ Spoken sim.log node → ∃ count, input = .restarted count
  restarted : ∀ count, input = .restarted count →
    count = incarnation sim.log node ∧ ¬ Spoken sim.log node
  evidence : Evidence sim.log node input write

theorem Separate.scheduleAll (separate : Separate sim silent) (events : List Event)
    (grounded : ∀ event ∈ events, event.isFault = false ∧ sim.Grounded event ∧
      ∀ node count, event ≠ .notify node (.restarted count)) :
    Separate { sim with queue := sim.queue.scheduleAll sim.now events } silent := by
  apply separate.change (.scheduleAll le_rfl fun event member => (grounded event member).1) _
    separate.held fun _ => .inl
  intro item member
  rcases EventQueue.mem_of_mem_scheduleAll member with stood | ⟨-, -, isIn⟩
  · exact .inl stood
  · exact .inr (grounded item.payload isIn).2

/-- The first event is taken; if it is the notice of a restart, it is in hand now. -/
theorem Separate.took {item : Scheduled Event} {queue : EventQueue Event}
    {timers : W.timers.Queue} (separate : Separate sim fun _ => False)
    (popped : sim.queue.pop = some (item, queue))
    (kept : W.timers.live timers = W.timers.live sim.timers) :
    Separate { sim with timers, queue, now := item.due, log := sim.log ++ [.took item] }
      fun node => ∃ count, item.payload = .notify node (.restarted count) := by
  rcases EventQueue.pop_eq_some popped with ⟨isHeap, -, before⟩
  have inHeap : ∀ other ∈ queue.heap, other ∈ sim.queue.heap := by
    intro other member
    rw [isHeap]
    exact List.mem_cons_of_mem _ member
  have isFirst : item ∈ sim.queue.heap := by
    rw [isHeap]
    exact List.mem_cons_self
  have popped : Separate { sim with timers, queue, now := item.due }
      fun node => ∃ count, item.payload = .notify node (.restarted count) := by
    refine ⟨separate.down, separate.incarnations, separate.unstarted, ?_, separate.held, ?_,
      separate.spoke, ?_, ?_, separate.told, separate.isolated⟩
    · intro other member
      exact (separate.grounded other (inHeap other member)).mono rfl (fun _ _ => le_rfl)
        (fun _ _ member => member) fun _ => rfl
    · simp only [kept]
      exact separate.timers
    · intro other member node count isNotice
      have waits := separate.waits other (inHeap other member) node count isNotice
      refine ⟨waits.unspoken, waits.items item isFirst, ?_,
        fun second isSecond => waits.items second (inHeap second isSecond), ?_⟩
      · simp only [kept]
        exact waits.timers
      · intro second isSecond reaches
        exact waits.first second (inHeap second isSecond)
          (reaches.of_le (fun _ _ => le_rfl) (separate.grounded second (inHeap second isSecond)))
    · intro node loud runs greater
      rcases separate.announced node not_false runs greater with spoken | ⟨other, member, count, notice⟩
      · exact .inl spoken
      · rw [isHeap, List.mem_cons] at member
        rcases member with rfl | stays
        · exact absurd ⟨count, notice⟩ loud
        · exact .inr ⟨other, stays, count, notice⟩
  have quiet : (Record.took (M := W.Message) item).Quiet := trivial
  exact popped.quiet quiet

/-- Nothing is queued that is due before a notice of a restart, so the clock does not go back
behind it. -/
theorem Separate.goOn {instant : SimTime} {timers : W.timers.Queue}
    (separate : Separate sim silent) (isNext : sim.nextInstant = some instant)
    (kept : ∀ timer ∈ W.timers.live timers, timer ∈ W.timers.live sim.timers) :
    Separate { sim with timers, now := instant } silent := by
  refine ⟨separate.down, separate.incarnations, separate.unstarted, ?_, separate.held, ?_,
    separate.spoke, ?_, separate.announced, separate.told, separate.isolated⟩
  · intro item member
    exact (separate.grounded item member).mono rfl (fun _ _ => le_rfl) (fun _ _ member => member)
      fun _ => rfl
  · exact fun timer member => separate.timers timer (kept timer member)
  · intro item member node count isNotice
    have waits := separate.waits item member node count isNotice
    refine ⟨waits.unspoken, ?_, fun timer isLive => waits.timers timer (kept timer isLive),
      waits.items, ?_⟩
    · rcases sim.exists_due_of_nextInstant isNext with ⟨timer, isLive, same⟩ | ⟨first, rest, held, same⟩
      · exact same ▸ waits.timers timer isLive
      · exact same ▸ waits.items first (by rw [held]; exact List.mem_cons_self)
    · intro other isOther reaches
      exact waits.first other isOther
        (reaches.of_le (fun _ _ => le_rfl) (separate.grounded other isOther))

end Sim

/-! ## A node that is down for a while -/

end SipxClstr.Simulation
