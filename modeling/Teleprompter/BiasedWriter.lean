import Teleprompter.StepRuns

/-!
# A writer with a queue and a control channel

A task writes the messages of a queue one after another until a control item
tells it to stop. Whenever it is free it looks at the control channel first, so
a control item overtakes everything that is still in the queue. A writer that
was told to stop therefore writes at most the message it has in hand.
-/

namespace Teleprompter.BiasedWriter

open StepRuns

variable {M C : Type}

/-- What a writer is doing. -/
inductive Phase (M C : Type) where
  | idle
  | writing (m : M)
  | stopping (c : C)
  | ended
  deriving DecidableEq

/-- What a writer writes. -/
inductive Output (M C : Type) where
  | text (m : M)
  | stop (c : C)
  deriving DecidableEq

/-- A writer with its two channels. -/
structure Writer (M C : Type) where
  queue : List M
  control : List C
  phase : Phase M C
  written : List (Output M C)

/-- A writer that wrote nothing. -/
def Writer.new : Writer M C := ⟨[], [], .idle, []⟩

/-- A step of a writer. The sink takes what is written or fails. -/
inductive WriterStep where
  | poll
  | wrote (ok : Bool)
  | stopped (ok : Bool)
  deriving DecidableEq

/-- A free writer takes a control item, or else a message. It ends when the channel
it would wait for has no sender left. -/
def Writer.poll (controlOpen queueOpen : Bool) (w : Writer M C) : Writer M C :=
  match w.phase with
  | .idle =>
    match w.control with
    | c :: control => { w with control, phase := .stopping c }
    | [] =>
      if controlOpen then
        match w.queue with
        | m :: queue => { w with queue, phase := .writing m }
        | [] => if queueOpen then w else { w with phase := .ended }
      else { w with phase := .ended }
  | _ => w

/-- One step. -/
def Writer.next (controlOpen queueOpen : Bool) (w : Writer M C) : WriterStep → Writer M C
  | .poll => w.poll controlOpen queueOpen
  | .wrote ok =>
    match w.phase with
    | .writing m =>
      if ok then { w with phase := .idle, written := w.written ++ [.text m] }
      else { w with phase := .ended }
    | _ => w
  | .stopped ok =>
    match w.phase with
    | .stopping c =>
      if ok then { w with phase := .ended, written := w.written ++ [.stop c] }
      else { w with phase := .ended }
    | _ => w

/-- The message in hand. -/
def Phase.inHand : Phase M C → List M
  | .writing m => [m]
  | _ => []

/-- The messages that a writer was given and has not written. -/
def Writer.unwritten (w : Writer M C) : List M := w.phase.inHand ++ w.queue

/-- The control item that stops the writer, as far as it is known. -/
def Writer.nextStop (w : Writer M C) : Option C :=
  match w.phase with
  | .ended => none
  | .stopping c => some c
  | _ => w.control.head?

/-- When a writer stops, it stops for this item and has written everything that was
unwritten at the earlier moment. -/
def StopsAfter (earlier : Writer M C) (c : C) (w : Writer M C) : Prop :=
  ∀ before c' after, w.written = earlier.written ++ before ++ .stop c' :: after →
    c' = c ∧ earlier.unwritten.map .text <+: before

/-- A writer that was told to stop since an earlier moment: it writes what it had in
hand then, and nothing else before it stops. -/
def ToldSince (earlier w : Writer M C) : Prop :=
  ∃ rest, w.written = earlier.written ++ rest ∧
    (w.phase ≠ .ended →
      rest ++ w.phase.inHand.map .text = earlier.phase.inHand.map .text ∧ w.nextStop ≠ none)

/-- Nothing was waiting at the earlier moment, and the writer stops for this item. -/
def Keeps (earlier : Writer M C) (c : C) (w : Writer M C) : Prop :=
  StopsAfter earlier c w ∧ (w.phase ≠ .ended → earlier.queue = [] ∧ w.nextStop = some c)

section Steps

variable {earlier w w' : Writer M C} {c : C}

/-- A free writer that was told to stop takes the control item, whatever waits in the queue. -/
theorem poll_of_nextStop (controlOpen queueOpen : Bool) (h : w.nextStop ≠ none) :
    w.poll controlOpen queueOpen = w ∨ ∃ c control, w.phase = .idle ∧ w.control = c :: control ∧
      w.poll controlOpen queueOpen = { w with control, phase := .stopping c } := by
  rcases w with ⟨queue, control, phase, written⟩
  cases phase with
  | idle =>
    cases control with
    | nil => exact absurd rfl h
    | cons c control => exact .inr ⟨c, control, rfl, rfl, rfl⟩
  | writing m => exact .inl rfl
  | stopping c => exact .inl rfl
  | ended => exact .inl rfl

theorem next_of_ended (controlOpen queueOpen : Bool) (h : w.phase = .ended) (e : WriterStep) :
    w.next controlOpen queueOpen e = w := by
  rcases w with ⟨queue, control, phase, written⟩
  cases h
  cases e with
  | poll => rfl
  | wrote ok => rfl
  | stopped ok => rfl

/-- A step of a writer that was told to stop: it stays as it is, writes what it has in
hand, begins to stop, stops, or ends without a word. -/
theorem next_cases (controlOpen queueOpen : Bool) (h : w.nextStop ≠ none) (e : WriterStep) :
    w.next controlOpen queueOpen e = w ∨
    (∃ m, w.phase = .writing m ∧
      w.next controlOpen queueOpen e = { w with phase := .idle, written := w.written ++ [.text m] }) ∨
    (∃ c control, w.phase = .idle ∧ w.control = c :: control ∧
      w.next controlOpen queueOpen e = { w with control, phase := .stopping c }) ∨
    (∃ c, w.phase = .stopping c ∧
      w.next controlOpen queueOpen e = { w with phase := .ended, written := w.written ++ [.stop c] }) ∨
    w.next controlOpen queueOpen e = { w with phase := .ended } := by
  cases e with
  | poll =>
    rcases poll_of_nextStop controlOpen queueOpen h with hsame | hstopping
    · exact .inl hsame
    · exact .inr (.inr (.inl hstopping))
  | wrote ok =>
    cases hphase : w.phase with
    | writing m =>
      cases ok with
      | true => exact .inr (.inl ⟨m, rfl, by simp only [Writer.next, hphase, if_true]⟩)
      | false => exact .inr (.inr (.inr (.inr (by simp [Writer.next, hphase]))))
    | _ => exact .inl (by simp only [Writer.next, hphase])
  | stopped ok =>
    cases hphase : w.phase with
    | stopping c =>
      cases ok with
      | true => exact .inr (.inr (.inr (.inl ⟨c, rfl, by simp only [Writer.next, hphase, if_true]⟩)))
      | false => exact .inr (.inr (.inr (.inr (by simp [Writer.next, hphase]))))
    | _ => exact .inl (by simp only [Writer.next, hphase])

/-- Nothing new is taken in hand after a writer was told to stop. -/
theorem ToldSince.next (h : ToldSince earlier w) (controlOpen queueOpen : Bool) (e : WriterStep) :
    ToldSince earlier (w.next controlOpen queueOpen e) := by
  obtain ⟨rest, hwritten, htold⟩ := h
  by_cases hended : w.phase = .ended
  · rw [next_of_ended controlOpen queueOpen hended]
    exact ⟨rest, hwritten, htold⟩
  obtain ⟨hhand, hstop⟩ := htold hended
  rcases next_cases controlOpen queueOpen hstop e with heq | ⟨m, hphase, heq⟩ |
    ⟨c, control, hphase, hcontrol, heq⟩ | ⟨c, hphase, heq⟩ | heq
  · rw [heq]
    exact ⟨rest, hwritten, htold⟩
  · rw [heq]
    refine ⟨rest ++ [.text m], ?_, fun _ => ⟨?_, ?_⟩⟩
    · rw [← List.append_assoc, ← hwritten]
    · rw [← hhand, hphase]
      exact List.append_nil _
    · rw [Writer.nextStop, hphase] at hstop
      exact hstop
  · rw [heq]
    refine ⟨rest, hwritten, fun _ => ⟨?_, nofun⟩⟩
    rw [← hhand, hphase]
    rfl
  · rw [heq]
    refine ⟨rest ++ [.stop c], ?_, fun h => absurd rfl h⟩
    rw [← List.append_assoc, ← hwritten]
  · rw [heq]
    exact ⟨rest, hwritten, fun h => absurd rfl h⟩

/-- What is put into the channels later changes neither, as long as the first control
item stays first. -/
theorem ToldSince.of_same (h : ToldSince earlier w) (hwritten : w'.written = w.written)
    (hphase : w'.phase = w.phase) (hstop : ∀ c, w.nextStop = some c → w'.nextStop = some c) :
    ToldSince earlier w' := by
  obtain ⟨rest, hrest, htold⟩ := h
  refine ⟨rest, hwritten.trans hrest, fun hended => ?_⟩
  rw [hphase] at hended ⊢
  obtain ⟨hhand, hnext⟩ := htold hended
  obtain ⟨c, hc⟩ := Option.ne_none_iff_exists'.mp hnext
  rw [hstop c hc]
  exact ⟨hhand, nofun⟩

theorem Keeps.of_same (h : Keeps earlier c w) (hwritten : w'.written = w.written)
    (hphase : w'.phase = w.phase) (hstop : ∀ c, w.nextStop = some c → w'.nextStop = some c) :
    Keeps earlier c w' := by
  refine ⟨fun before c' after hsplit => h.1 before c' after (hwritten ▸ hsplit), fun hended => ?_⟩
  obtain ⟨hqueue, hnext⟩ := h.2 (hphase ▸ hended)
  exact ⟨hqueue, hstop c hnext⟩

theorem nextStop_queue (w : Writer M C) (queue : List M) :
    { w with queue }.nextStop = w.nextStop := by
  rw [Writer.nextStop, Writer.nextStop]

/-- A control item behind others does not come first. -/
theorem nextStop_control (w : Writer M C) (c' : C) :
    ∀ c, w.nextStop = some c → { w with control := w.control ++ [c'] }.nextStop = some c := by
  intro c hnext
  rcases w with ⟨queue, control, phase, written⟩
  cases phase with
  | stopping c => exact hnext
  | ended => cases hnext
  | idle =>
    cases control with
    | nil => cases hnext
    | cons c control => exact hnext
  | writing m =>
    cases control with
    | nil => cases hnext
    | cons c control => exact hnext

end Steps

section Stops

variable {earlier w : Writer M C} {c : C}

theorem not_stop_of_texts {texts : List M} {before after : List (Output M C)}
    (h : texts.map .text = before ++ .stop c :: after) : False := by
  have hmem : .stop c ∈ texts.map (.text : M → Output M C) := by
    rw [h]
    exact List.mem_append_right _ List.mem_cons_self
  obtain ⟨m, -, hm⟩ := List.mem_map.mp hmem
  cases hm

/-- A stop at the end of texts is the only one. -/
theorem split_at_stop {texts : List M} {c' : C} {before after : List (Output M C)}
    (h : texts.map .text ++ [.stop c] = before ++ .stop c' :: after) :
    before = texts.map .text ∧ c' = c := by
  rcases List.append_eq_append_iff.mp h with ⟨between, hbefore, hstop⟩ | ⟨between, htexts, hstop⟩
  · cases between with
    | nil =>
      rw [List.nil_append, List.cons.injEq] at hstop
      cases hstop.1
      exact ⟨by rw [hbefore, List.append_nil], rfl⟩
    | cons o between =>
      rw [List.cons_append, List.cons.injEq] at hstop
      have hnil := hstop.2
      simp at hnil
  · cases between with
    | nil =>
      rw [List.append_nil] at htexts
      rw [List.nil_append, List.cons.injEq] at hstop
      cases hstop.1
      exact ⟨htexts.symm, rfl⟩
    | cons o between =>
      rw [List.cons_append, List.cons.injEq] at hstop
      rw [← hstop.1] at htexts
      exact absurd htexts not_stop_of_texts

/-- As long as only texts follow, no stop breaks the promise. -/
theorem stopsAfter_of_texts {rest : List (Output M C)} {texts : List M}
    (hwritten : w.written = earlier.written ++ rest) (hrest : rest <+: texts.map .text) :
    StopsAfter earlier c w := by
  intro before c' after hsplit
  rw [hwritten, List.append_assoc, List.append_cancel_left_eq] at hsplit
  obtain ⟨more, hmore⟩ := hrest
  rw [hsplit, List.append_assoc, List.cons_append] at hmore
  exact absurd hmore.symm not_stop_of_texts

/-- Every step of a writer that was told to stop keeps the promise. -/
theorem Keeps.next (h : Keeps earlier c w) (htold : ToldSince earlier w)
    (controlOpen queueOpen : Bool) (e : WriterStep) :
    Keeps earlier c (w.next controlOpen queueOpen e) := by
  by_cases hended : w.phase = .ended
  · rw [next_of_ended controlOpen queueOpen hended]
    exact h
  obtain ⟨rest, hwritten, htold⟩ := htold
  obtain ⟨hhand, hstop⟩ := htold hended
  obtain ⟨hqueue, hnext⟩ := h.2 hended
  rcases next_cases controlOpen queueOpen hstop e with heq | ⟨m, hphase, heq⟩ |
    ⟨c', control, hphase, hcontrol, heq⟩ | ⟨c', hphase, heq⟩ | heq
  · rw [heq]
    exact h
  · rw [heq]
    rw [hphase] at hhand
    have hrest : rest ++ [.text m] <+: earlier.phase.inHand.map .text := by
      rw [← hhand]
      exact List.prefix_rfl
    refine ⟨stopsAfter_of_texts ?_ hrest, fun _ => ⟨hqueue, ?_⟩⟩
    · rw [← List.append_assoc, ← hwritten]
    · rw [Writer.nextStop, hphase] at hnext
      exact hnext
  · rw [heq]
    rw [Writer.nextStop, hphase, hcontrol] at hnext
    exact ⟨h.1, fun _ => ⟨hqueue, hnext⟩⟩
  · rw [heq]
    rw [Writer.nextStop, hphase, Option.some_inj] at hnext
    rw [hphase] at hhand
    have hrest : rest = earlier.phase.inHand.map .text := (List.append_nil rest).symm.trans hhand
    refine ⟨fun before c'' after hsplit => ?_, fun h => absurd rfl h⟩
    dsimp only at hsplit
    rw [hwritten, hrest, List.append_assoc, List.append_assoc, List.append_cancel_left_eq] at hsplit
    obtain ⟨hbefore, hc⟩ := split_at_stop hsplit
    refine ⟨hc.trans hnext, ?_⟩
    rw [hbefore, Writer.unwritten, hqueue, List.append_nil]
  · rw [heq]
    exact ⟨h.1, fun h => absurd rfl h⟩

/-- A writer that was told to stop can stop at once. -/
theorem exists_stop (controlOpen queueOpen : Bool) (h : w.nextStop = some c) :
    ∃ steps, (runFrom (Writer.next controlOpen queueOpen) w steps).written =
      w.written ++ w.phase.inHand.map .text ++ [.stop c] := by
  rcases w with ⟨queue, control, phase, written⟩
  cases phase with
  | ended => cases h
  | stopping c' =>
    cases h
    refine ⟨[.stopped true], ?_⟩
    change written ++ [.stop c] = written ++ [] ++ [.stop c]
    rw [List.append_nil]
  | idle =>
    cases control with
    | nil => cases h
    | cons c' control =>
      cases h
      refine ⟨[.poll, .stopped true], ?_⟩
      change written ++ [.stop c] = written ++ [] ++ [.stop c]
      rw [List.append_nil]
  | writing m =>
    cases control with
    | nil => cases h
    | cons c' control =>
      cases h
      exact ⟨[.wrote true, .poll, .stopped true], rfl⟩

/-- Under every schedule the writer stops for this item after everything that was
unwritten, exactly when nothing was waiting and no other item comes first. -/
theorem keeps_iff_schedules (htold : ToldSince earlier w) (controlOpen queueOpen : Bool) :
    (∀ steps, StopsAfter earlier c (runFrom (Writer.next controlOpen queueOpen) w steps)) ↔
      Keeps earlier c w := by
  constructor
  · intro h
    refine ⟨h [], fun hended => ?_⟩
    obtain ⟨rest, hwritten, htold⟩ := htold
    obtain ⟨hhand, hstop⟩ := htold hended
    obtain ⟨c', hc'⟩ := Option.ne_none_iff_exists'.mp hstop
    obtain ⟨steps, hsteps⟩ := exists_stop controlOpen queueOpen hc'
    obtain ⟨rfl, hprefix⟩ := h steps (rest ++ w.phase.inHand.map .text) c' [] (by
      rw [hsteps, hwritten, List.append_assoc earlier.written])
    rw [hhand, Writer.unwritten] at hprefix
    have hlength := hprefix.length_le
    rw [List.length_map, List.length_map, List.length_append] at hlength
    exact ⟨List.length_eq_zero_iff.mp (by omega), hc'⟩
  · intro h steps
    have hstep : ∀ w e, ToldSince earlier w ∧ Keeps earlier c w →
        ToldSince earlier (w.next controlOpen queueOpen e) ∧
          Keeps earlier c (w.next controlOpen queueOpen e) :=
      fun w e hw => ⟨hw.1.next controlOpen queueOpen e, hw.2.next hw.1 controlOpen queueOpen e⟩
    exact (runFrom_induction hstep ⟨htold, h⟩ steps).2.1

/-- A control item is put in behind the others. -/
theorem toldSince_control (w : Writer M C) (c : C) :
    ToldSince w { w with control := w.control ++ [c] } := by
  refine ⟨[], (List.append_nil _).symm, fun hended => ⟨rfl, ?_⟩⟩
  rcases w with ⟨queue, control, phase, written⟩
  cases phase with
  | ended => exact absurd rfl hended
  | stopping c' => nofun
  | idle => cases control <;> nofun
  | writing m => cases control <;> nofun

/-- The promise made with a control item: nothing waits, and it comes first. -/
theorem keeps_control_iff (w : Writer M C) (c : C) :
    Keeps w c { w with control := w.control ++ [c] } ↔
      (w.phase ≠ .ended → w.queue = [] ∧ (w.nextStop = none ∨ w.nextStop = some c)) := by
  have hpromise : StopsAfter w c { w with control := w.control ++ [c] } := by
    intro before c' after hsplit
    dsimp only at hsplit
    have hlength := congrArg List.length hsplit
    rw [List.length_append, List.length_append, List.length_cons] at hlength
    omega
  have hstop : w.phase ≠ .ended → ({ w with control := w.control ++ [c] }.nextStop = some c ↔
      w.nextStop = none ∨ w.nextStop = some c) := by
    intro hended
    cases hnext : w.nextStop with
    | some c' =>
      rw [nextStop_control w c c' hnext]
      simp
    | none =>
      rcases w with ⟨queue, control, phase, written⟩
      cases phase with
      | ended => exact absurd rfl hended
      | stopping c' => cases hnext
      | idle =>
        cases control with
        | nil => exact ⟨fun _ => .inl rfl, fun _ => rfl⟩
        | cons c' control => cases hnext
      | writing m =>
        cases control with
        | nil => exact ⟨fun _ => .inl rfl, fun _ => rfl⟩
        | cons c' control => cases hnext
  constructor
  · rintro ⟨-, hkept⟩ hended
    obtain ⟨hqueue, hnext⟩ := hkept hended
    exact ⟨hqueue, (hstop hended).mp hnext⟩
  · intro h
    refine ⟨hpromise, fun hended => ?_⟩
    obtain ⟨hqueue, hnext⟩ := h hended
    exact ⟨hqueue, (hstop hended).mpr hnext⟩

end Stops

end Teleprompter.BiasedWriter
