import SipxClstr.Reactive.Journal

/-!
# Channels

A channel is seen in a journal: something is written to it, the first of what is under way
arrives, or it is replaced, and nothing is under way on the new one.  Between two entries it may
lose any of what is under way.
-/

namespace Reactive

universe u v

/-- What an entry of a journal is to a channel. -/
inductive Mark (α : Type v) where
  | idle
  | written (item : α)
  | arrived (item : α)
  | replaced
  deriving DecidableEq

namespace Mark

variable {α : Type v}

def written? : Mark α → Option α
  | .written item => some item
  | _ => none

def arrived? : Mark α → Option α
  | .arrived item => some item
  | _ => none

end Mark

section Channel

variable {ε : Type u} {α : Type v} (mark : ε → Mark α)

/-- What is under way behind a journal. -/
inductive Channel : List ε → List α → Prop where
  | opened : Channel [] []
  | idles {journal : List ε} {transit : List α} (channel : Channel journal transit) (entry : ε)
      (isIdle : mark entry = .idle) : Channel (journal ++ [entry]) transit
  | writes {journal : List ε} {transit : List α} {entry : ε} {item : α}
      (channel : Channel journal transit) (isWrite : mark entry = .written item) :
      Channel (journal ++ [entry]) (transit ++ [item])
  | arrives {journal : List ε} {transit : List α} {entry : ε} {item : α}
      (channel : Channel journal (item :: transit)) (isArrival : mark entry = .arrived item) :
      Channel (journal ++ [entry]) transit
  | replaces {journal : List ε} {transit : List α} {entry : ε} (channel : Channel journal transit)
      (isReplaced : mark entry = .replaced) : Channel (journal ++ [entry]) []
  | loses {journal : List ε} {transit fewer : List α} (channel : Channel journal transit)
      (sublist : fewer.Sublist transit) : Channel journal fewer

/-- What a stretch of a journal writes. -/
def writtenIn (stretch : List ε) : List α :=
  stretch.filterMap fun entry => (mark entry).written?

/-- What arrives in a stretch of a journal. -/
def arrivedIn (stretch : List ε) : List α :=
  stretch.filterMap fun entry => (mark entry).arrived?

/-- A channel begins behind these entries. -/
def Opens (past : List ε) : Prop :=
  past = [] ∨ ∃ before entry, past = before ++ [entry] ∧ mark entry = .replaced

/-- A stretch of a journal that begins with a channel. -/
def Stretch (journal stretch : List ε) : Prop :=
  ∃ past future, journal = past ++ stretch ++ future ∧ Opens mark past

variable {mark} {journal past stretch : List ε} {transit : List α} {entry : ε}

theorem Stretch.whole (journal : List ε) : Stretch mark journal journal :=
  ⟨[], [], by simp, .inl rfl⟩

@[simp]
theorem writtenIn_concat (stretch : List ε) (entry : ε) :
    writtenIn mark (stretch ++ [entry]) = writtenIn mark stretch ++ (mark entry).written?.toList := by
  rw [writtenIn, List.filterMap_append]
  cases isMark : (mark entry).written? <;> simp [writtenIn, isMark]

@[simp]
theorem arrivedIn_concat (stretch : List ε) (entry : ε) :
    arrivedIn mark (stretch ++ [entry]) =
      arrivedIn mark stretch ++ (mark entry).arrived?.toList := by
  rw [arrivedIn, List.filterMap_append]
  cases isMark : (mark entry).arrived? <;> simp [arrivedIn, isMark]

/-- A stretch to the end of a journal ends with its last entry, unless that replaced the
channel. -/
theorem Opens.concat (opens : Opens mark past) (split : journal ++ [entry] = past ++ stretch) :
    mark entry = .replaced ∧ stretch = [] ∨
      ∃ before, stretch = before ++ [entry] ∧ journal = past ++ before := by
  induction stretch using List.reverseRecOn with
  | nil =>
      rw [List.append_nil] at split
      rcases opens with rfl | ⟨before, last, rfl, isReplaced⟩
      · simp at split
      · obtain ⟨-, rfl⟩ := List.append_inj' split rfl |>.imp id List.singleton_inj.mp
        exact .inl ⟨isReplaced, rfl⟩
  | append_singleton before last _ =>
      rw [← List.append_assoc] at split
      obtain ⟨rfl, same⟩ := List.append_inj' split rfl
      obtain rfl := List.singleton_inj.mp same
      exact .inr ⟨before, rfl, rfl⟩

/-- What arrived since a channel began, with what is under way behind it, was written since, in
this order. -/
theorem Channel.inOrder_of_opens (channel : Channel mark journal transit) (opens : Opens mark past)
    (split : journal = past ++ stretch) :
    (arrivedIn mark stretch ++ transit).Sublist (writtenIn mark stretch) := by
  induction channel generalizing stretch with
  | opened =>
      obtain ⟨-, rfl⟩ := List.nil_eq_append_iff.mp split
      exact List.nil_sublist _
  | idles _ _ isIdle ih =>
      rcases opens.concat split with ⟨isReplaced, -⟩ | ⟨before, rfl, rfl⟩
      · rw [isIdle] at isReplaced
        contradiction
      · simpa [isIdle, Mark.written?, Mark.arrived?] using ih rfl
  | @writes _ transit _ item _ isWrite ih =>
      rcases opens.concat split with ⟨isReplaced, -⟩ | ⟨before, rfl, rfl⟩
      · rw [isWrite] at isReplaced
        contradiction
      · have longer := (ih rfl).append (List.Sublist.refl [item])
        simpa [isWrite, Mark.written?, Mark.arrived?] using longer
  | arrives _ isArrival ih =>
      rcases opens.concat split with ⟨isReplaced, -⟩ | ⟨before, rfl, rfl⟩
      · rw [isArrival] at isReplaced
        contradiction
      · simpa [isArrival, Mark.written?, Mark.arrived?] using ih rfl
  | @replaces _ transit _ _ isReplaced ih =>
      rcases opens.concat split with ⟨-, rfl⟩ | ⟨before, rfl, rfl⟩
      · exact List.nil_sublist _
      · have fewer := (List.sublist_append_left (arrivedIn mark before) transit).trans (ih rfl)
        simpa [isReplaced, Mark.written?, Mark.arrived?] using fewer
  | loses _ sublist ih =>
      exact (List.Sublist.append (.refl _) sublist).trans (ih split)

theorem Channel.of_concat (channel : Channel mark (journal ++ [entry]) transit) :
    ∃ transit, Channel mark journal transit := by
  generalize whole : journal ++ [entry] = longer at channel
  induction channel with
  | opened => simp at whole
  | loses _ _ ih => exact ih whole
  | idles channel => exact ⟨_, (List.append_inj' whole rfl).1 ▸ channel⟩
  | writes channel => exact ⟨_, (List.append_inj' whole rfl).1 ▸ channel⟩
  | arrives channel => exact ⟨_, (List.append_inj' whole rfl).1 ▸ channel⟩
  | replaces channel => exact ⟨_, (List.append_inj' whole rfl).1 ▸ channel⟩

/-- What a journal began with had a channel too. -/
theorem Channel.of_append {future : List ε} (channel : Channel mark (journal ++ future) transit) :
    ∃ transit, Channel mark journal transit := by
  induction future generalizing journal with
  | nil => exact ⟨transit, List.append_nil journal ▸ channel⟩
  | cons entry rest ih =>
      rw [List.append_cons] at channel
      obtain ⟨_, earlier⟩ := ih channel
      exact earlier.of_concat

/-- What arrives from a channel was written to it, in the order it arrives in. -/
theorem Channel.inOrder (channel : Channel mark journal transit)
    (isStretch : Stretch mark journal stretch) :
    (arrivedIn mark stretch).Sublist (writtenIn mark stretch) := by
  obtain ⟨past, future, rfl, opens⟩ := isStretch
  obtain ⟨left, earlier⟩ := channel.of_append
  exact (List.sublist_append_left _ left).trans (earlier.inOrder_of_opens opens rfl)

end Channel

end Reactive
