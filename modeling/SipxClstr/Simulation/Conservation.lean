import SipxClstr.Simulation.Streams

/-!
# Conservation

Every write is accounted for.  It is in a queue or a buffer, or the trace says once what became of
it, unless its sender's buffer was emptied by a fault, of which the trace says nothing.  A write
that is duplicated is accounted for twice.
-/

namespace SipxClstr.Simulation

open SipxClstr.Sip Reactive Machine

/-- A write on its way from one node to another. -/
structure Passage where
  sender : NodeId
  receiver : NodeId
  write : Nat
  deriving DecidableEq

def HeldWrite.passage (held : HeldWrite) : Passage :=
  ⟨held.sender, held.receiver, held.write⟩

/-- The write whose fate an event is. -/
def Event.passage? : Event → Option Passage
  | .deliver sender receiver _ _ write => some ⟨sender, receiver, write⟩
  | .breaks node peer write => write.map fun write => ⟨node, peer, write⟩
  | _ => none

namespace Record

variable {M : Type}

/-- The write that is asked for. -/
def sent? : Record M → Option Passage
  | .traced _ node _ (.sent receiver _) (some write) => some ⟨node, receiver, write⟩
  | _ => none

/-- The write that is to arrive once more. -/
def doubled? : Record M → Option Passage
  | .traced _ node _ (.duplicated receiver _) (some write) => some ⟨node, receiver, write⟩
  | _ => none

/-- The write of which a line of the trace says what became of it. -/
def settled? : Record M → Option Passage
  | .traced _ node _ (.received sender _) (some write) => some ⟨sender, node, write⟩
  | .traced _ node _ (.malformed sender _) (some write) => some ⟨sender, node, write⟩
  | .traced _ node _ (.dropped receiver _) (some write) => some ⟨node, receiver, write⟩
  | .traced _ node _ (.broken receiver) (some write) => some ⟨node, receiver, write⟩
  | _ => none

/-- What says nothing of a write. -/
def Idle (record : Record M) : Prop :=
  record.sent? = none ∧ record.doubled? = none ∧ record.settled? = none

end Record

/-- The faults that empty a sender's buffer of what it wrote to a receiver. -/
def Fault.discards (sender receiver : NodeId) : Fault → Bool
  | .killNode node => node = sender ∨ node = receiver
  | .restartNode node => node = sender ∨ node = receiver
  | .reconnect a b => (a = sender ∧ b = receiver) ∨ (a = receiver ∧ b = sender)
  | _ => false

/-- A write was discarded from a buffer by a fault that was applied after it was asked for. -/
def Excused {M : Type} (log : List (Record M)) (passage : Passage) : Prop :=
  ∃ past fault future, log = past ++ .applied fault :: future ∧
    passage ∈ past.filterMap Record.sent? ∧
      fault.discards passage.sender passage.receiver = true

theorem Excused.append {M : Type} {log : List (Record M)} {passage : Passage}
    (excused : Excused log passage) (extra : List (Record M)) : Excused (log ++ extra) passage := by
  obtain ⟨past, fault, future, rfl, sent, discards⟩ := excused
  exact ⟨past, fault, future ++ extra, by simp, sent, discards⟩

namespace EventQueue

universe u v

variable {T : Type u} {β : Type v}

theorem gathered_scheduleAt_perm (queue : EventQueue T) (f : T → Option β) (due : SimTime) (payload : T) :
    ((queue.scheduleAt due payload).gathered f).Perm
      (queue.gathered f ++ (f payload).toList) := by
  obtain ⟨before, behind, isHeap, placed, -⟩ := queue.heap_scheduleAt due payload
  rw [gathered, gathered, isHeap, placed, List.filterMap_append, List.filterMap_append]
  have split : (⟨due, queue.nextSeq, payload⟩ :: behind).filterMap (fun item => f item.payload) =
      (f payload).toList ++ behind.filterMap fun item => f item.payload := by
    cases isSome : f payload <;> simp [isSome]
  rw [split, List.append_assoc]
  exact List.Perm.append_left _ List.perm_append_comm

end EventQueue

namespace Sim

variable {W : World} {sim next : Sim W} {inHand discarded : List Passage}

/-- Every write that was asked for, and every second copy, is in hand, in a queue, in a buffer,
settled or discarded; and the writes are numbered as they are asked for. -/
structure Accounted (sim : Sim W) (inHand discarded : List Passage) : Prop where
  balance : (sim.log.filterMap Record.sent? ++ sim.log.filterMap Record.doubled?).Perm
    (inHand ++ sim.queue.gathered Event.passage? ++ sim.held.map HeldWrite.passage ++
      sim.log.filterMap Record.settled? ++ discarded)
  numbered : (sim.log.filterMap Record.sent?).map Passage.write = List.range sim.writes
  held : ∀ write ∈ sim.held, write.passage ∈ sim.log.filterMap Record.sent?
  excused : ∀ passage ∈ discarded, Excused sim.log passage

theorem filterMap_concat {α β : Type} (f : α → Option β) (entries : List α) (entry : α) :
    (entries ++ [entry]).filterMap f = entries.filterMap f ++ (f entry).toList := by
  rw [List.filterMap_append]
  cases isSome : f entry <;> simp [isSome]

namespace Accounted

/-- A line is written, and what it brings in is what is passed on. -/
theorem notes {left : List Passage} {record : Record W.Message}
    (accounted : Accounted sim inHand discarded) (more : List HeldWrite) (log : next.log = sim.log ++ [record])
    (queue : next.queue = sim.queue) (held : next.held = sim.held ++ more)
    (writes : next.writes = sim.writes + record.sent?.toList.length)
    (numbered : ∀ passage ∈ record.sent?, passage.write = sim.writes)
    (sent : ∀ write ∈ more, record.sent? = some write.passage)
    (even : (inHand ++ record.sent?.toList ++ record.doubled?.toList).Perm
      (left ++ more.map HeldWrite.passage ++ record.settled?.toList)) :
    Accounted next left discarded where
  balance := by
    have before := accounted.balance
    rw [log, queue, held]
    rw [List.perm_iff_count] at before even ⊢
    intro passage
    have before := before passage
    have even := even passage
    simp only [List.count_append, filterMap_concat, List.map_append] at before even ⊢
    omega
  numbered := by
    rw [log, writes, filterMap_concat, List.map_append, accounted.numbered]
    cases isSent : record.sent? with
    | none => simp
    | some passage => simp [numbered passage isSent, List.range_succ]
  held := by
    intro write member
    rw [held] at member
    rw [log, filterMap_concat]
    rcases List.mem_append.mp member with stood | isNew
    · exact List.mem_append_left _ (accounted.held write stood)
    · exact List.mem_append_right _ (by simp [sent write isNew])
  excused := by
    intro passage member
    rw [log]
    exact (accounted.excused passage member).append [record]

/-- A line is written that says nothing of a write. -/
theorem idles {record : Record W.Message} (accounted : Accounted sim inHand discarded)
    (idle : record.Idle) (log : next.log = sim.log ++ [record])
    (queue : next.queue = sim.queue) (held : next.held = sim.held)
    (writes : next.writes = sim.writes) : Accounted next inHand discarded := by
  obtain ⟨noSent, noDouble, noFate⟩ := idle
  apply accounted.notes [] log queue <;> simp [held, writes, noSent, noDouble, noFate]

/-- A line is written that says what became of the write in hand. -/
theorem settlesTo {passage : Passage} {record : Record W.Message}
    (accounted : Accounted sim (passage :: inHand) discarded)
    (isFate : record.settled? = some passage) (noSent : record.sent? = none)
    (noDouble : record.doubled? = none) (log : next.log = sim.log ++ [record])
    (queue : next.queue = sim.queue) (held : next.held = sim.held)
    (writes : next.writes = sim.writes) : Accounted next inHand discarded := by
  have passedOn := (List.perm_append_singleton passage inHand).symm
  apply accounted.notes [] log queue <;>
    simp [held, writes, noSent, noDouble, isFate, passedOn]

/-- A line is written that says that the write in hand is to arrive twice. -/
theorem doubles {passage : Passage} {record : Record W.Message}
    (accounted : Accounted sim (passage :: inHand) discarded)
    (isDouble : record.doubled? = some passage) (noSent : record.sent? = none)
    (noFate : record.settled? = none) (log : next.log = sim.log ++ [record])
    (queue : next.queue = sim.queue) (held : next.held = sim.held)
    (writes : next.writes = sim.writes) :
    Accounted next (passage :: passage :: inHand) discarded := by
  have twice := List.perm_append_singleton passage inHand
  apply accounted.notes [] log queue <;>
    simp [held, writes, noSent, isDouble, noFate, twice]

/-- Nothing is written down, and what is queued is the fate of no write. -/
theorem silent (accounted : Accounted sim inHand discarded) (log : next.log = sim.log)
    (queue : (next.queue.gathered Event.passage?).Perm (sim.queue.gathered Event.passage?))
    (held : next.held = sim.held) (writes : next.writes = sim.writes) :
    Accounted next inHand discarded where
  balance := by
    rw [log, held]
    apply accounted.balance.trans
    exact (((queue.symm.append_left inHand).append_right _).append_right _).append_right _
  numbered := by
    rw [log, writes]
    exact accounted.numbered
  held := by
    rw [log, held]
    exact accounted.held
  excused := by
    rw [log]
    exact accounted.excused

/-- The write in hand is queued. -/
theorem queues (event : Event)
    (accounted : Accounted sim (event.passage?.toList ++ inHand) discarded) (due : SimTime) :
    Accounted { sim with queue := sim.queue.scheduleAt due event } inHand discarded where
  balance := by
    have before := accounted.balance
    have queue := sim.queue.gathered_scheduleAt_perm Event.passage? due event
    rw [List.perm_iff_count] at before queue ⊢
    intro passage
    have before := before passage
    have queue := queue passage
    simp only [List.count_append] at before queue ⊢
    omega
  numbered := accounted.numbered
  held := accounted.held
  excused := accounted.excused

/-- A write crosses a link. -/
theorem crosses {sender receiver write : Nat} {bytes : Bytes} {summary : Text}
    (accounted : Accounted sim (⟨sender, receiver, write⟩ :: inHand) discarded)
    (crossed : Crossed sim sender receiver bytes summary write next) :
    Accounted next inHand discarded := by
  have relinked : ∀ link, Accounted
      ({ sim with links := setPair sim.links sender receiver (some link) } : Sim W)
      (⟨sender, receiver, write⟩ :: inHand) discarded :=
    fun _ => accounted.silent rfl (.refl _) rfl rfl
  cases crossed with
  | dropped link => exact (relinked link).settlesTo rfl rfl rfl rfl rfl rfl rfl
  | broken link => exact (relinked link).queues (.breaks sender receiver (some write)) _
  | once link due =>
      exact ((relinked link).queues
        (.deliver sender receiver bytes (sim.connections sender receiver) write) due).idles
          ⟨rfl, rfl, rfl⟩ rfl rfl rfl rfl
  | twice link first second =>
      have doubled : Accounted { sim with
          links := setPair sim.links sender receiver (some link)
          log := sim.log ++ [.traced sim.now sender (sim.nameOf sender)
            (.duplicated receiver summary) (some write)] }
          (⟨sender, receiver, write⟩ :: ⟨sender, receiver, write⟩ :: inHand) discarded :=
        (relinked link).doubles rfl rfl rfl rfl rfl rfl rfl
      have queued := (doubled.queues
        (.deliver sender receiver bytes (sim.connections sender receiver) write)
          first).queues
        (.deliver sender receiver bytes (sim.connections sender receiver) write) second
      exact queued.idles (show Record.Idle (.crossed sender receiver write) from ⟨rfl, rfl, rfl⟩)
        (by simp) rfl rfl rfl

theorem send {sender receiver : NodeId} {message : W.Message}
    (accounted : Accounted sim inHand discarded) :
    Accounted (sim.send sender receiver message) inHand discarded := by
  rcases sim.send_cases sender receiver message with ⟨-, -, -, same⟩ | ⟨-, crossed⟩
  · rw [same]
    have held : Accounted { sim with
        log := sim.log ++ [.traced sim.now sender (sim.nameOf sender)
          (.sent receiver (W.summarize message)) (some sim.writes)]
        writes := sim.writes + 1
        held := sim.held ++
          [⟨receiver, sender, W.toBytes message, W.summarize message, sim.writes⟩] }
        inHand discarded := by
      refine accounted.notes [_] rfl rfl rfl rfl ?_ ?_ ?_ <;>
        simp [Record.sent?, HeldWrite.passage, Record.doubled?, Record.settled?]
    exact held.queues (.notify sender (.writeStalled receiver sim.writes)) sim.now
  · have asked : Accounted { sim with
        log := sim.log ++ [.traced sim.now sender (sim.nameOf sender)
          (.sent receiver (W.summarize message)) (some sim.writes)]
        writes := sim.writes + 1 } (⟨sender, receiver, sim.writes⟩ :: inHand) discarded := by
      have inFront := List.perm_append_singleton
        (⟨sender, receiver, sim.writes⟩ : Passage) inHand
      refine accounted.notes [] rfl rfl (List.append_nil _).symm rfl ?_ ?_ ?_ <;>
        simp [Record.sent?, Record.doubled?, Record.settled?, inFront]
    exact asked.crosses crossed

theorem record {node : NodeId} {event : TraceEvent} {write : Option Nat}
    (accounted : Accounted sim inHand discarded)
    (idle : (Record.traced (M := W.Message) sim.now node (sim.nameOf node) event write).Idle) :
    Accounted (sim.record node event write) inHand discarded :=
  accounted.idles idle rfl rfl rfl rfl

theorem performOne {node : NodeId} (effect : Effect W.Message)
    (accounted : Accounted sim inHand discarded) :
    Accounted (performOne node sim effect) inHand discarded := by
  have wanted : Accounted { sim with log := sim.log ++ [.performed sim.now node effect] }
      inHand discarded := accounted.idles ⟨rfl, rfl, rfl⟩ rfl rfl rfl rfl
  cases effect with
  | send receiver message => exact wanted.send
  | setTimer timer after => exact wanted.idles ⟨rfl, rfl, rfl⟩ rfl rfl rfl rfl
  | clearTimer timer => exact wanted.idles ⟨rfl, rfl, rfl⟩ rfl rfl rfl rfl
  | note what => exact wanted.record ⟨rfl, rfl, rfl⟩

theorem hand (accounted : Accounted sim inHand discarded) (node : NodeId)
    (input : Input W.Message) (write : Option Nat) :
    Accounted (sim.hand node input write) inHand discarded := by
  apply hand_induction (fun reached => Accounted reached inHand discarded)
  · exact fun _ => accounted
  · intro nodes _ _
    exact accounted.idles ⟨rfl, rfl, rfl⟩ rfl rfl rfl rfl
  · intro reached effect _ _ reachedAccounted
    exact reachedAccounted.performOne effect

/-! ## Faults -/

/-- What is discarded is excused by the fault that discards it. -/
theorem discards {past : List (Record W.Message)} {fault : Fault} {keep : HeldWrite → Bool}
    {future : List (Record W.Message)} (accounted : Accounted sim inHand discarded)
    (isLog : sim.log = past ++ .applied fault :: future)
    (wrote : ∀ write ∈ sim.held, write.passage ∈ past.filterMap Record.sent?)
    (kept : ∀ write ∈ sim.held, keep write = false →
      fault.discards write.sender write.receiver = true)
    (log : next.log = sim.log)
    (queue : (next.queue.gathered Event.passage?).Perm (sim.queue.gathered Event.passage?))
    (held : next.held = sim.held.filter keep) (writes : next.writes = sim.writes) :
    ∃ discarded, Accounted next inHand discarded := by
  refine ⟨(sim.held.filter fun write => !keep write).map HeldWrite.passage ++ discarded,
    ?_, ?_, ?_, ?_⟩
  · have before := accounted.balance
    have parts := (List.filter_append_perm keep sim.held).map HeldWrite.passage
    rw [log, held]
    rw [List.perm_iff_count] at before queue parts ⊢
    intro passage
    have before := before passage
    have queue := queue passage
    have parts := parts passage
    simp only [List.count_append, List.map_append] at before parts ⊢
    omega
  · rw [log, writes]
    exact accounted.numbered
  · intro write member
    rw [held] at member
    rw [log]
    exact accounted.held write (List.mem_filter.mp member).1
  · intro passage member
    rw [log]
    rcases List.mem_append.mp member with isNew | stood
    · obtain ⟨write, isHeld, rfl⟩ := List.mem_map.mp isNew
      obtain ⟨wasHeld, dropped⟩ := List.mem_filter.mp isHeld
      rw [Bool.not_eq_true'] at dropped
      exact ⟨past, fault, future, isLog, wrote write wasHeld, kept write wasHeld dropped⟩
    · exact accounted.excused passage stood

/-- Writes that were held are let go, and are in hand until they cross their links. -/
theorem releases {released : List HeldWrite}
    (accounted : Accounted sim (released.map HeldWrite.passage ++ inHand) discarded) :
    Accounted (released.foldl release sim) inHand discarded := by
  induction released generalizing sim with
  | nil => exact accounted
  | cons write rest ih =>
      have told := accounted.queues
        (.notify write.sender (.writeFlushed write.receiver write.write)) sim.now
      exact ih (told.crosses (dispatch_crossed _ write.sender write.receiver write.bytes
        write.summary write.write))

theorem resumes (accounted : Accounted sim inHand discarded) (node : NodeId) :
    Accounted (sim.applyResume node) inHand discarded := by
  apply releases
  constructor
  · have before := accounted.balance
    have parts := (List.filter_append_perm (fun write : HeldWrite => decide (write.receiver = node))
      sim.held).map HeldWrite.passage
    rw [List.perm_iff_count] at before parts ⊢
    intro passage
    have before := before passage
    have parts := parts passage
    simp only [List.count_append, List.map_append, ne_eq, decide_not] at before parts ⊢
    omega
  · exact accounted.numbered
  · intro write member
    exact accounted.held write (List.mem_filter.mp member).1
  · exact accounted.excused

/-- A fault takes effect after it is written down. -/
theorem takeEffect {past future : List (Record W.Message)} {fault : Fault}
    (accounted : Accounted sim inHand discarded) (isLog : sim.log = past ++ .applied fault :: future)
    (wrote : ∀ write ∈ sim.held, write.passage ∈ past.filterMap Record.sent?) :
    ∃ discarded, Accounted (sim.takeEffect fault) inHand discarded := by
  cases fault with
  | killNode node =>
      refine accounted.discards isLog wrote ?_ rfl (.refl _) rfl rfl
      intro write _ dropped
      rw [decide_eq_false_iff_not, ne_eq, ne_eq, ← not_or, not_not] at dropped
      exact decide_eq_true (dropped.symm.imp Eq.symm Eq.symm)
  | cut x y =>
      obtain ⟨links, same, -⟩ := cut_cutBetween sim x y true
      rw [Sim.takeEffect, same]
      exact ⟨discarded, accounted.silent rfl (.refl _) rfl rfl⟩
  | heal x y =>
      obtain ⟨links, same, -⟩ := cut_cutBetween sim x y false
      rw [Sim.takeEffect, same]
      exact ⟨discarded, accounted.silent rfl (.refl _) rfl rfl⟩
  | setLinkPolicy sender receiver policy =>
      exact ⟨discarded, accounted.silent rfl (.refl _) rfl rfl⟩
  | timerSkew node perMille => exact ⟨discarded, accounted.silent rfl (.refl _) rfl rfl⟩
  | reconnect x y =>
      obtain ⟨connections, -, -, -, same⟩ := sim.applyReconnect_cases x y
      rw [Sim.takeEffect, same]
      refine accounted.discards isLog wrote ?_ rfl ?_ rfl rfl
      · intro write _ dropped
        rw [decide_eq_false_iff_not, ← not_or, not_not] at dropped
        simp only [Fault.discards, Bool.decide_or, Bool.or_eq_true, decide_eq_true_eq]
        rcases dropped with ⟨rfl, rfl⟩ | ⟨rfl, rfl⟩
        · exact .inr ⟨rfl, rfl⟩
        · exact .inl ⟨rfl, rfl⟩
      · have same : (sim.queue.scheduleAll sim.now [.breaks x y none, .breaks y x none,
            .notify x (.connected y), .notify y (.connected x)]).gathered Event.passage? =
              sim.queue.gathered Event.passage? :=
          EventQueue.gathered_scheduleAll (by simp [Event.passage?])
        exact same ▸ .refl _
  | restartNode node =>
      obtain ⟨connections, events, -, -, isBreak, same⟩ := sim.restart_cases node
      rw [Sim.takeEffect, same]
      refine accounted.discards isLog wrote ?_ rfl ?_ rfl rfl
      · intro write _ dropped
        rw [decide_eq_false_iff_not, ne_eq, ne_eq, ← not_or, not_not] at dropped
        exact decide_eq_true (dropped.symm.imp Eq.symm Eq.symm)
      · have noFate : ∀ event ∈ events ++ [.notify node (.restarted (sim.restarts node + 1 + 1))],
            event.passage? = none := by
          intro event member
          rcases List.mem_append.mp member with isIn | isNotice
          · obtain ⟨peer, -, rfl⟩ := isBreak event isIn
            rfl
          · obtain rfl := List.mem_singleton.mp isNotice
            rfl
        have same : (sim.queue.scheduleAll sim.now
            (events ++ [.notify node (.restarted (sim.restarts node + 1 + 1))])).gathered
              Event.passage? = sim.queue.gathered Event.passage? :=
          EventQueue.gathered_scheduleAll noFate
        rw [EventQueue.scheduleAll_concat] at same
        exact same ▸ .refl _
  | stopReading node =>
      refine ⟨discarded, ?_⟩
      simp only [Sim.takeEffect]
      split
      · exact accounted
      · exact accounted.silent rfl (.refl _) rfl rfl
  | resumeReading node => exact ⟨discarded, accounted.resumes node⟩

theorem apply (accounted : Accounted sim inHand discarded) (fault : Fault) :
    ∃ discarded, Accounted (sim.apply fault) inHand discarded := by
  have logged : Accounted (({ sim with log := sim.log ++ [Record.applied fault] } : Sim W).record
      fault.anchor (.fault (fault.summary W)) none) inHand discarded := by
    apply Accounted.record _ ⟨rfl, rfl, rfl⟩
    exact accounted.idles ⟨rfl, rfl, rfl⟩ rfl rfl rfl rfl
  exact logged.takeEffect (List.append_assoc _ _ _) accounted.held

/-! ## A round of the loop -/

theorem handle {event : Event}
    (accounted : Accounted sim (event.passage?.toList ++ inHand) discarded) :
    ∃ discarded, Accounted (sim.handle event) inHand discarded := by
  cases event with
  | deliver sender receiver bytes connection write =>
      refine ⟨discarded, ?_⟩
      simp only [Sim.handle, handleDelivery]
      cases isRead : W.parseDatagram bytes with
      | error reason => exact accounted.settlesTo rfl rfl rfl rfl rfl rfl rfl
      | ok message =>
          simp only
          split
          · exact accounted.settlesTo rfl rfl rfl rfl rfl rfl rfl
          · apply Accounted.hand
            exact accounted.settlesTo rfl rfl rfl rfl rfl rfl rfl
  | fault fault => exact accounted.apply fault
  | breaks node peer write =>
      refine ⟨discarded, Accounted.hand ?_ _ _ _⟩
      cases write with
      | none => exact accounted.record ⟨rfl, rfl, rfl⟩
      | some write => exact accounted.settlesTo rfl rfl rfl rfl rfl rfl rfl
  | notify node notice =>
      refine ⟨discarded, ?_⟩
      cases notice with
      | connected peer => exact accounted.hand _ _ _
      | restarted incarnation => exact (accounted.record ⟨rfl, rfl, rfl⟩).hand _ _ _
      | writeStalled peer write => exact accounted.hand _ _ _
      | writeFlushed peer write => exact accounted.hand _ _ _

theorem fires (accounted : Accounted sim inHand discarded) (keys : List (NodeId × TimerId)) :
    Accounted (keys.foldl fire sim) inHand discarded := by
  induction keys generalizing sim with
  | nil => exact accounted
  | cons key rest ih => exact ih ((accounted.record ⟨rfl, rfl, rfl⟩).hand _ _ _)

theorem turned {instant : SimTime} (accounted : Accounted sim inHand discarded)
    (turned : Turned sim instant next) : ∃ discarded, Accounted next inHand discarded := by
  cases turned with
  | took item queue timers popped =>
      have taken : Accounted { sim with queue } (item.payload.passage?.toList ++ inHand)
          discarded := by
        refine ⟨?_, accounted.numbered, accounted.held, accounted.excused⟩
        apply accounted.balance.trans
        rw [EventQueue.gathered_of_pop popped, ← List.append_assoc]
        exact (((List.perm_append_comm.append_right _).append_right _).append_right _).append_right _
      have noted : Accounted { sim with
          timers, queue, now := instant, log := sim.log ++ [.took item] }
          (item.payload.passage?.toList ++ inHand) discarded :=
        taken.idles (show Record.Idle (.took item) from ⟨rfl, rfl, rfl⟩) rfl rfl rfl rfl
      exact noted.handle
  | fired keys timers =>
      have goesOn : Accounted { sim with now := instant, timers } inHand discarded :=
        accounted.silent rfl (.refl _) rfl rfl
      exact ⟨discarded, goesOn.fires keys⟩

theorem start (accounted : Accounted sim inHand discarded) :
    Accounted sim.start inHand discarded := by
  unfold Sim.start
  split
  · exact accounted
  · have steps : ∀ (ids : List NodeId) (reached : Sim W), Accounted reached inHand discarded →
        Accounted (ids.foldl
          (fun sim id => (sim.record id .started none).hand id .started none) reached) inHand
          discarded := by
      intro ids
      induction ids with
      | nil => exact fun _ accounted => accounted
      | cons id rest ih =>
          intro reached accounted
          exact ih _ ((accounted.record ⟨rfl, rfl, rfl⟩).hand _ _ _)
    exact steps _ _ (accounted.silent rfl (.refl _) rfl rfl)

/-- A move accounts for every write. -/
theorem move (accounted : Accounted sim [] discarded) (move : Move W) :
    ∃ discarded, Accounted (sim.move move) [] discarded := by
  cases move with
  | enqueue due fault =>
      have queued := accounted.queues (.fault fault) due
      have idle : Record.Idle (M := W.Message)
          (.queued sim.now ⟨due, sim.queue.nextSeq, .fault fault⟩) := ⟨rfl, rfl, rfl⟩
      exact ⟨discarded, queued.idles idle rfl rfl rfl rfl⟩
  | setPartitioned sender receiver partitioned =>
      obtain ⟨links, same, -⟩ := cut_setPartitioned sim sender receiver partitioned
      simp only [Sim.move, part, same]
      have parted : Accounted { sim with links } [] discarded :=
        accounted.silent rfl (.refl _) rfl rfl
      have idle : Record.Idle (M := W.Message) (.parted sender receiver partitioned) :=
        ⟨rfl, rfl, rfl⟩
      exact ⟨discarded, parted.idles idle rfl rfl rfl rfl⟩
  | start => exact ⟨discarded, accounted.start⟩
  | inject sender receiver message =>
      exact ⟨discarded, (accounted.record ⟨rfl, rfl, rfl⟩).hand _ _ _⟩
  | turn =>
      simp only [Sim.move]
      cases isNext : sim.nextInstant with
      | none => exact ⟨discarded, accounted⟩
      | some instant => exact accounted.turned (turn_turned isNext).1
  | settle deadline =>
      refine ⟨discarded, ?_⟩
      simp only [Sim.move, settle]
      split
      · exact accounted.silent rfl (.refl _) rfl rfl
      · exact accounted

end Accounted

theorem accounted_fresh (fresh : sim.Fresh) : Accounted sim [] [] := by
  have noQueue : sim.queue.gathered Event.passage? = [] := by
    rw [fresh.queue]
    rfl
  refine ⟨?_, ?_, ?_, ?_⟩ <;> simp [noQueue, fresh.log, fresh.held, fresh.writes]

/-- In every run every write that was asked for, and every second copy, is queued or held, or is
settled once by a line of the trace between the same two nodes, or was discarded by a fault that
was applied to one of its ends after it was asked for. -/
theorem writes_accounted (seed : UInt64) (topology : List (Build W))
    (sequence : List (Call W)) :
    ∃ discarded, Accounted ((built W seed topology).calls sequence) [] discarded := by
  have along : Along (machine W) (fun _ _ => True) (built W seed topology)
      ((built W seed topology).moves sequence) := along_of_forall _ (fun _ _ => trivial) _ _
  apply calls_induction (fun sim => ∃ discarded, Accounted sim [] discarded) _ _ along
  · exact ⟨[], accounted_fresh (fresh_built seed topology)⟩
  · rintro reached move ⟨discarded, accounted⟩ - -
    exact accounted.move move

end Sim

end SipxClstr.Simulation
