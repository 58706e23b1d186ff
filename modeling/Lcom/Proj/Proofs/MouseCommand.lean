/-
When every argument reaches the mouse.

Turns that find the input buffer full change nothing, so a call is
settled by the others, and there by the first three: one writes the
command, one the argument, and if the answer is not the acknowledgement
the third writes the argument again. That one has no command of its own.
-/
import Lcom.Proj.MouseCommand

namespace Lcom.Proj

variable {argument : UInt8} {t : Turn} {ts : List Turn}

-- ============================================================== polling

/-- A turn polls, fails, or writes. -/
theorem Turn.cases (t : Turn) :
    (∃ status, t.status = some status ∧ status &&& inBuff ≠ 0)
      ∨ (t.busy = false ∧ ¬t.Writes ∧ (t.status = none
        ∨ ∃ status, t.status = some status ∧ status &&& inBuff = 0
          ∧ t.writes = false))
      ∨ (t.busy = false ∧ t.Writes) := by
  unfold Turn.busy Turn.Writes
  cases t.status with
  | none => simp
  | some status =>
      by_cases hfull : status &&& inBuff = 0
      · cases t.writes <;> simp [hfull]
      · simp [hfull]

theorem busy_of_full {status : UInt8} (h : t.status = some status)
    (hfull : status &&& inBuff ≠ 0) : t.busy = true := by
  unfold Turn.busy
  simp [h, hfull]

/-- Turns that find the buffer full do not matter to the second loop. -/
theorem sendArgument_filter (argument : UInt8) (ts : List Turn) :
    sendArgument argument (ts.filter fun t => !t.busy)
      = sendArgument argument ts := by
  induction ts with
  | nil => rfl
  | cons t ts ih =>
      rcases t.cases with ⟨status, hs, hfull⟩ | ⟨hbusy, -⟩ | ⟨hbusy, -⟩
      · rw [List.filter_cons_of_neg (by simp [busy_of_full hs hfull]), ih]
        simp [sendArgument, hs, hfull]
      all_goals
        rw [List.filter_cons_of_pos (by simp [hbusy])]
        simp only [sendArgument, ih]

/-- Nor to the first. -/
theorem writeArgumentToMouse_filter (argument : UInt8) (ts : List Turn) :
    writeArgumentToMouse argument (ts.filter fun t => !t.busy)
      = writeArgumentToMouse argument ts := by
  induction ts with
  | nil => rfl
  | cons t ts ih =>
      rcases t.cases with ⟨status, hs, hfull⟩ | ⟨hbusy, -⟩ | ⟨hbusy, -⟩
      · rw [List.filter_cons_of_neg (by simp [busy_of_full hs hfull]), ih]
        simp [writeArgumentToMouse, hs, hfull]
      all_goals
        rw [List.filter_cons_of_pos (by simp [hbusy])]
        simp only [writeArgumentToMouse, ih, sendArgument_filter]

-- ========================================================== single turns

/-- What a turn that does not poll makes of the second loop. -/
theorem sendArgument_fails (hbusy : t.busy = false) (h : ¬t.Writes) :
    sendArgument argument (t :: ts) = ⟨[], some 1⟩ := by
  rcases t.cases with ⟨status, hs, hfull⟩ | ⟨-, -, hfail⟩ | ⟨-, hw⟩
  · rw [busy_of_full hs hfull] at hbusy
    cases hbusy
  · rcases hfail with hs | ⟨status, hs, hempty, hwrite⟩
    · simp [sendArgument, hs]
    · simp [sendArgument, hs, hempty, hwrite]
  · exact absurd hw h

theorem sendArgument_unanswered (h : t.Writes) (ha : t.answer = none) :
    sendArgument argument (t :: ts) = ⟨[.argument argument], some 1⟩ := by
  obtain ⟨⟨status, hs, hempty⟩, hwrite⟩ := h
  simp [sendArgument, hs, hempty, hwrite, ha]

theorem sendArgument_acknowledged (h : t.Writes)
    (ha : t.answer = some isOk) :
    sendArgument argument (t :: ts)
      = ⟨[.argument argument, .answer isOk], some 0⟩ := by
  obtain ⟨⟨status, hs, hempty⟩, hwrite⟩ := h
  simp [sendArgument, hs, hempty, hwrite, ha]

theorem sendArgument_refused (h : t.Writes) {acknow : UInt8}
    (ha : t.answer = some acknow) (hne : acknow ≠ isOk) :
    sendArgument argument (t :: ts) = (sendArgument argument ts).after
      [.argument argument, .answer acknow] := by
  obtain ⟨⟨status, hs, hempty⟩, hwrite⟩ := h
  simp [sendArgument, hs, hempty, hwrite, ha, hne]

theorem writeArgumentToMouse_fails (hbusy : t.busy = false)
    (h : ¬t.Writes) :
    writeArgumentToMouse argument (t :: ts) = ⟨[], some 1⟩ := by
  rcases t.cases with ⟨status, hs, hfull⟩ | ⟨-, -, hfail⟩ | ⟨-, hw⟩
  · rw [busy_of_full hs hfull] at hbusy
    cases hbusy
  · rcases hfail with hs | ⟨status, hs, hempty, hwrite⟩
    · simp [writeArgumentToMouse, hs]
    · simp [writeArgumentToMouse, hs, hempty, hwrite]
  · exact absurd hw h

theorem writeArgumentToMouse_writes (h : t.Writes) :
    writeArgumentToMouse argument (t :: ts)
      = (sendArgument argument ts).after
        [.command issueCommandToTheMouse] := by
  obtain ⟨⟨status, hs, hempty⟩, hwrite⟩ := h
  simp [writeArgumentToMouse, hs, hempty, hwrite]

/-- A loop whose first turn writes begins with the argument. -/
theorem sendArgument_begins (argument : UInt8) (ts : List Turn)
    (h : t.Writes) :
    ∃ rest, (sendArgument argument (t :: ts)).trace
      = .argument argument :: rest := by
  cases ha : t.answer with
  | none =>
      rw [sendArgument_unanswered h ha]
      exact ⟨_, rfl⟩
  | some acknow =>
      by_cases hack : acknow = isOk
      · rw [sendArgument_acknowledged h (hack ▸ ha)]
        exact ⟨_, rfl⟩
      · rw [sendArgument_refused h ha hack]
        exact ⟨_, rfl⟩

/-- A loop whose first turn does not write ends there. -/
theorem sendArgument_ends (argument : UInt8)
    (hbusy : ∀ t ∈ ts, t.busy = false)
    (h : ∀ t ∈ ts.head?, ¬t.Writes) :
    (sendArgument argument ts).trace = []
      ∧ (sendArgument argument ts).result ≠ some 0 := by
  cases ts with
  | nil => exact ⟨rfl, nofun⟩
  | cons t ts =>
      rw [sendArgument_fails (hbusy t (by simp)) (h t rfl)]
      exact ⟨rfl, by decide⟩

-- ========================================================= the condition

/-- A call that has written nothing meets the law unless it returns 0. -/
theorem addressed_of_nil {c : Exchange} (h : c.trace = [])
    (hr : c.result ≠ some 0) : Addressed argument c := by
  intro addressed
  rw [h]
  exact ⟨nofun, fun h0 => absurd h0 hr⟩

/-- The second loop once the argument has been refused: the law holds
exactly if the next turn does not write. -/
theorem addressed_refused_iff {acknow : UInt8}
    (hbusy : ∀ t ∈ ts, t.busy = false) :
    Addressed argument ((sendArgument argument ts).after
        [.command issueCommandToTheMouse, .argument argument,
          .answer acknow])
      ↔ ∀ again ∈ ts.head?, ¬again.Writes := by
  constructor
  · rintro h again hagain hw
    obtain ⟨rest, rfl⟩ := List.head?_eq_some_iff.1 hagain
    -- the argument goes out with no command before it
    obtain ⟨accesses, htrace⟩ := sendArgument_begins argument rest hw
    have hmouse := (h true).1 .keyboard (by
      simp [Exchange.after, htrace, recipients])
    cases hmouse
  · intro h addressed
    obtain ⟨htrace, hresult⟩ := sendArgument_ends argument hbusy h
    refine ⟨?_, fun h0 => absurd h0 hresult⟩
    simp [Exchange.after, htrace, recipients]

/-- The command alone, or with an argument that is not answered. -/
theorem addressed_unanswered {c : Exchange}
    (htrace : c.trace = [] ∨ c.trace = [.argument argument])
    (hr : c.result ≠ some 0) :
    Addressed argument (c.after [.command issueCommandToTheMouse]) := by
  intro addressed
  refine ⟨?_, fun h0 => absurd h0 hr⟩
  rcases htrace with htrace | htrace <;>
    simp [Exchange.after, htrace, recipients]

/-- The command, the argument and its acknowledgement. -/
theorem addressed_acknowledged :
    Addressed argument (Exchange.after ⟨[.argument argument, .answer isOk],
      some 0⟩ [.command issueCommandToTheMouse]) := by
  intro addressed
  refine ⟨?_, fun _ => ⟨[.command issueCommandToTheMouse], rfl, rfl⟩⟩
  simp [Exchange.after, recipients]

/-- A turn that writes the argument and is refused comes before one that
writes. -/
def WrittenAgain (ts : List Turn) : Prop :=
  ∃ sent again rest acknow, ts = sent :: again :: rest ∧ sent.Writes
    ∧ sent.answer = some acknow ∧ acknow ≠ isOk ∧ again.Writes

/-- The second loop after the command: the law holds exactly if a turn
that has been refused is not followed by one that writes. -/
theorem addressed_after_command_iff (hbusy : ∀ t ∈ ts, t.busy = false) :
    Addressed argument
        ((sendArgument argument ts).after [.command issueCommandToTheMouse])
      ↔ ¬WrittenAgain ts := by
  by_cases hhead : ∀ t ∈ ts.head?, ¬t.Writes
  · obtain ⟨htrace, hresult⟩ := sendArgument_ends argument hbusy hhead
    refine iff_of_true (addressed_unanswered (.inl htrace) hresult) ?_
    rintro ⟨sent, again, rest, acknow, rfl, hsent, -⟩
    exact hhead sent rfl hsent
  · push Not at hhead
    obtain ⟨t, ht, hw⟩ := hhead
    obtain ⟨ts, rfl⟩ := List.head?_eq_some_iff.1 ht
    cases ha : t.answer with
    | none =>
        rw [sendArgument_unanswered hw ha]
        refine iff_of_true (addressed_unanswered (.inr rfl) (by simp)) ?_
        rintro ⟨sent, again, rest, acknow, h, -, ha', -⟩
        cases h
        cases ha.symm.trans ha'
    | some acknow =>
        by_cases hack : acknow = isOk
        · subst hack
          rw [sendArgument_acknowledged hw ha]
          refine iff_of_true addressed_acknowledged ?_
          rintro ⟨sent, again, rest, acknow', h, -, ha', hne, -⟩
          cases h
          cases ha.symm.trans ha'
          exact hne rfl
        · rw [sendArgument_refused hw ha hack]
          have hrest : ∀ t ∈ ts, t.busy = false := fun t ht =>
            hbusy t (List.mem_cons_of_mem _ ht)
          refine (addressed_refused_iff hrest).trans ⟨?_, ?_⟩
          · rintro h ⟨sent, again, rest, -, hcons, -, -, -, hagain⟩
            cases hcons
            exact h again rfl hagain
          · intro h again hagain hwrites
            obtain ⟨rest, rfl⟩ := List.head?_eq_some_iff.1 hagain
            exact h ⟨t, again, rest, acknow, rfl, hw, ha, hack, hwrites⟩

theorem addressed_iff (argument : UInt8) (ts : List Turn) :
    Addressed argument (writeArgumentToMouse argument ts)
      ↔ NotWrittenAgain ts := by
  rw [← writeArgumentToMouse_filter]
  unfold NotWrittenAgain
  have hbusy : ∀ t ∈ ts.filter (fun t => !t.busy), t.busy = false := by
    intro t ht
    simpa using (List.mem_filter.1 ht).2
  generalize ts.filter (fun t => !t.busy) = rs at hbusy
  cases rs with
  | nil =>
      refine iff_of_true (addressed_of_nil rfl nofun) ?_
      exact fun _ _ _ _ _ h => nomatch h
  | cons t rs =>
      by_cases hw : t.Writes
      · rw [writeArgumentToMouse_writes hw, addressed_after_command_iff
          fun t ht => hbusy t (List.mem_cons_of_mem _ ht)]
        constructor
        · rintro h command sent again rest acknow hcons - hsent ha hne hagain
          cases hcons
          exact h ⟨sent, again, rest, acknow, rfl, hsent, ha, hne, hagain⟩
        · rintro h ⟨sent, again, rest, acknow, rfl, hsent, ha, hne, hagain⟩
          exact h t sent again rest acknow rfl hw hsent ha hne hagain
      · rw [writeArgumentToMouse_fails (hbusy t (by simp)) hw]
        refine iff_of_true (addressed_of_nil rfl (by simp)) ?_
        rintro command sent again rest acknow hcons hcommand
        cases hcons
        exact absurd hcommand hw

-- =========================================================== the result

/-- In the project and in lab4, over every sequence of status bytes and
answers: every argument goes to the mouse, and 0 is returned only on its
acknowledgement, exactly if no turn writes after the argument has been
refused. -/
theorem argument_addressed_iff (argument : UInt8) (ts : List Turn) :
    (Addressed argument (writeArgumentToMouse argument ts)
        ↔ NotWrittenAgain ts)
      ∧ (Addressed argument (Lab4.writeArgumentToMouse argument ts)
        ↔ NotWrittenAgain ts) :=
  ⟨addressed_iff argument ts, addressed_iff argument ts⟩

/-- The input buffer is empty, and the mouse answers with `acknow`. -/
def answering (acknow : UInt8) : Turn :=
  { status := some 0, writes := true, answer := some acknow }

/-- The mouse asks for the byte again and acknowledges the second: the
argument is written twice, the second time to the keyboard, and the call
returns 0. -/
theorem argument_sent_to_keyboard :
    writeArgumentToMouse enableMouseDataCommand
        [answering 0, answering 0xFE, answering isOk]
      = ⟨[.command 0xD4, .argument 0xF4, .answer 0xFE, .argument 0xF4,
          .answer 0xFA], some 0⟩
      ∧ ¬Addressed enableMouseDataCommand
        (writeArgumentToMouse enableMouseDataCommand
          [answering 0, answering 0xFE, answering isOk]) := by
  refine ⟨by decide, fun h => ?_⟩
  have hmouse := (h false).1 .keyboard (by decide)
  cases hmouse

end Lcom.Proj
