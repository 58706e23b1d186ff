/-
What the writes to the controller come to.

`writeCommand` leaves its loop only where a write fails, so with writes
that succeed it goes on for ever, and sends the command again each time
the input buffer is empty.

What `kbcEnableInterrutpt` writes back is settled by the first turn of
`readData` that does not find the output buffer empty
(`kbcEnableInterrutpt_cases`). If that turn does not read the byte cleanly
the call goes on all the same, with whatever `scancode` holds.
-/
import Lcom.Proj.CommandByte

namespace Lcom.Proj

open Machine

-- ========================================================= the commands

section

variable {cmd port : UInt8} {statuses : Nat → UInt8}

/-- A turn whose write would succeed stays in the loop, and writes if the
input buffer is empty. -/
theorem writeTurn_device (k : Nat) :
    writeTurn cmd port (device statuses true k)
      = ⟨.status (statuses k) ::
          (if statuses k &&& inBuff = 0 then [.write port cmd] else []),
        none⟩ := by
  by_cases h : statuses k &&& inBuff = 0 <;> simp [writeTurn, device, h]

/-- So the call never returns, and writes once for each clear status. -/
theorem writeCommand_device (n : Nat) :
    writeCommand cmd port (device statuses true) n
      = ⟨(List.range n).flatMap fun k => .status (statuses k) ::
          (if statuses k &&& inBuff = 0 then [.write port cmd] else []),
        none⟩ := by
  have hstays : ∀ k < n,
      (writeTurn cmd port (device statuses true k)).result = none :=
    fun k _ => by rw [writeTurn_device]
  rw [writeCommand, poll_stays hstays]
  simp only [writeTurn_device]

/-- The number of writes is the number of clear statuses. -/
theorem length_writes (n : Nat) :
    ((writeCommand cmd port (device statuses true) n).trace.filter
        KbcAccess.isWrite).length
      = ((List.range n).filter fun k => statuses k &&& inBuff = 0).length := by
  rw [writeCommand_device]
  induction n with
  | zero => rfl
  | succ n ih =>
      rw [List.range_succ, List.flatMap_append, List.filter_append,
        List.length_append, ih, List.filter_append, List.length_append]
      by_cases h : statuses n &&& inBuff = 0 <;>
        simp [List.filter, KbcAccess.isWrite, h]

/-- A call whose writes succeed is never done. -/
theorem not_issuesOnce : ¬IssuesOnce cmd port statuses := by
  rintro ⟨n, v, before, stat, after, hcall, -⟩
  rw [writeCommand_device] at hcall
  injection hcall with _ hresult
  cases hresult

end

/-- Whatever the status register gives, with writes that succeed the call
does not issue its command once: it never returns, and has written once
for each clear status so far. -/
theorem writeCommand_never_done (cmd port : UInt8)
    (statuses : Nat → UInt8) :
    ¬IssuesOnce cmd port statuses
      ∧ ∀ n, (writeCommand cmd port (device statuses true) n).result = none
        ∧ ((writeCommand cmd port (device statuses true) n).trace.filter
            KbcAccess.isWrite).length
          = ((List.range n).filter fun k =>
            statuses k &&& inBuff = 0).length := by
  refine ⟨not_issuesOnce, fun n => ⟨?_, length_writes n⟩⟩
  rw [writeCommand_device]

/-- A controller that is never busy: after three turns the command has
been written three times. -/
theorem writeCommand_repeats :
    (0x00 : UInt8) &&& inBuff = 0
      ∧ ¬IssuesOnce 0xAE 0x64 (fun _ => 0x00)
      ∧ (writeCommand 0xAE 0x64 (device (fun _ => 0x00) true) 3).trace
        = [.status 0x00, .write 0x64 0xAE, .status 0x00, .write 0x64 0xAE,
          .status 0x00, .write 0x64 0xAE] :=
  ⟨by decide, not_issuesOnce, by decide⟩

-- ========================================================= the data read

section

variable {scancode : UInt8} {t : PortReads}

/-- The loop of `readData` goes on exactly while the output buffer is
empty. -/
theorem readTurn_result_none :
    (readTurn scancode t).result = none ↔ t.empty = true := by
  unfold readTurn PortReads.empty
  cases t.status with
  | none => simp
  | some stat =>
      by_cases h : stat &&& outBuff = 0
      · simp [h]
      · cases t.data with
        | none => simp [h]
        | some byte => by_cases herr : stat &&& kbcErr = 0 <;> simp [h, herr]

/-- It writes nothing. -/
theorem readTurn_reads {a : KbcAccess}
    (h : a ∈ (readTurn scancode t).trace) : a.isWrite = false := by
  unfold readTurn at h
  repeat' split at h
  all_goals
    simp only [List.mem_cons, List.not_mem_nil, or_false] at h
  all_goals
    first
    | exact h.elim
    | (subst h; rfl)
    | (rcases h with rfl | rfl <;> rfl)

/-- A clean turn stores the byte it reads. -/
theorem readTurn_clean (scancode : UInt8) (h : t.Clean) :
    ∃ byte, t.data = some byte
      ∧ (readTurn scancode t).result = some (1, byte) := by
  obtain ⟨⟨stat, hs, hfull, herr⟩, hdata⟩ := h
  obtain ⟨byte, hbyte⟩ := Option.ne_none_iff_exists'.1 hdata
  exact ⟨byte, hbyte, by simp [readTurn, hs, hfull, herr, hbyte]⟩

end

-- ========================================================= the accesses

section

variable {as l : List KbcAccess}

/-- Reads do not come into the command bytes. -/
theorem commandBytes_reads (h : ∀ a ∈ l, a.isWrite = false)
    (expected : Bool) :
    commandBytes expected (l ++ as) = commandBytes expected as := by
  induction l with
  | nil => rfl
  | cons a l ih =>
      have hl := ih fun a' ha' => h a' (by simp [ha'])
      cases a with
      | write port byte => exact nomatch h _ (List.mem_cons_self ..)
      | status stat => exact hl
      | data byte => exact hl

/-- Nor does the command 0x20 before them. -/
theorem commandBytes_asked (h : ∀ a ∈ l, a.isWrite = false) :
    commandBytes false (.write statusKbc readCommand :: (l ++ as))
      = commandBytes false as := by
  calc commandBytes false (.write statusKbc readCommand :: (l ++ as))
      = commandBytes false (l ++ as) := rfl
    _ = commandBytes false as := commandBytes_reads h false

/-- The command 0x60 is none of the accesses up to the end of
`readData`. -/
theorem writeCommandByte_notMem (h : ∀ a ∈ l, a.isWrite = false) :
    .write statusKbc writeCommandByte
      ∉ .write statusKbc readCommand :: l := by
  intro hmem
  rcases List.mem_cons.1 hmem with heq | hmem
  · exact absurd heq (by decide)
  · exact absurd (h _ hmem) (by decide)

end

-- ============================================================= the call

section

variable {c scancode : UInt8} {d : Controller c} {n : Nat}

/-- Without the first command nothing is done. -/
theorem kbcEnableInterrutpt_refused (h : d.readCommand = false) :
    kbcEnableInterrutpt scancode d n = ⟨[], some 1⟩ := by
  simp [kbcEnableInterrutpt, h]

/-- The turn that decides is the one that leaves the loop. -/
theorem decides_of_leaves {k : Nat} {r : UInt8 × UInt8}
    (hbefore : ∀ j < k, (readTurn scancode (d.turns j)).result = none)
    (hk : (readTurn scancode (d.turns k)).result = some r) :
    d.Decides k := by
  refine ⟨fun j hj => readTurn_result_none.1 (hbefore j hj), ?_⟩
  rw [← Bool.not_eq_true]
  intro hempty
  rw [readTurn_result_none.2 hempty] at hk
  cases hk

/-- Only one turn decides. -/
theorem decides_unique {k k' : Nat} (h : d.Decides k) (h' : d.Decides k') :
    k = k' := by
  rcases Nat.lt_trichotomy k k' with hlt | heq | hlt
  · exact absurd (h'.1 k hlt) (by simp [h.2])
  · exact heq
  · exact absurd (h.1 k' hlt) (by simp [h'.2])

/-- After the first command the call is still polling, or a turn has
decided what `scancode` holds and the call has gone on from there. -/
theorem kbcEnableInterrutpt_cases (scancode : UInt8) (d : Controller c)
    (n : Nat) (hread : d.readCommand = true) :
    ∃ reads : List KbcAccess, (∀ a ∈ reads, a.isWrite = false)
      ∧ ((kbcEnableInterrutpt scancode d n
            = ⟨.write statusKbc readCommand :: reads, none⟩
          ∧ ∀ k, d.Decides k → n ≤ k)
        ∨ ∃ k v s, d.Decides k
          ∧ (readTurn scancode (d.turns k)).result = some (v, s)
          ∧ kbcEnableInterrutpt scancode d n
            = ⟨.write statusKbc readCommand
                :: (reads ++ (writeBack s d).trace),
              (writeBack s d).result⟩) := by
  refine ⟨(readData scancode d.turns n).trace, ?_, ?_⟩
  · intro a ha
    obtain ⟨k, hk⟩ := mem_poll_trace ha
    exact readTurn_reads hk
  have hpolls : (∀ k < n, (readTurn scancode (d.turns k)).result = none) →
      kbcEnableInterrutpt scancode d n
        = ⟨.write statusKbc readCommand
            :: (readData scancode d.turns n).trace, none⟩ := by
    intro h
    have hres : (readData scancode d.turns n).result = none := by
      rw [readData, poll_stays h]
    simp [kbcEnableInterrutpt, hread, hres]
  rcases first_leaving (readTurn scancode) d.turns with hforever | hfirst
  · refine .inl ⟨hpolls fun k _ => hforever k, fun k hk => ?_⟩
    exact absurd (readTurn_result_none.1 (hforever k)) (by simp [hk.2])
  obtain ⟨k, ⟨v, s⟩, hbefore, hk⟩ := hfirst
  have hdecides := decides_of_leaves hbefore hk
  rcases Nat.lt_or_ge k n with hlt | hge
  · refine .inr ⟨k, v, s, hdecides, hk, ?_⟩
    have hres : (readData scancode d.turns n).result = some (v, s) := by
      rw [readData, poll_leaves hbefore hk hlt]
    simp [kbcEnableInterrutpt, hread, hres]
  · refine .inl ⟨hpolls fun j hj => hbefore j (Nat.lt_of_lt_of_le hj hge), ?_⟩
    intro k' hk'
    rw [decides_unique hk' hdecides]
    exact hge

-- ========================================================= the condition

/-- A call that has read cleanly writes the byte it has read. -/
theorem keeps_of_clean {k : Nat} (hk : d.Decides k)
    (hclean : (d.turns k).Clean) (n : Nat) :
    ∀ byte ∈ commandBytes false (kbcEnableInterrutpt scancode d n).trace,
      byte = c ||| interruptBit := by
  cases hread : d.readCommand with
  | false =>
      rw [kbcEnableInterrutpt_refused hread]
      exact fun _ h => nomatch h
  | true =>
      obtain ⟨reads, hreads, ⟨hcall, -⟩ | ⟨k', v, s, hk', hres, hcall⟩⟩ :=
        kbcEnableInterrutpt_cases scancode d n hread
      · rw [hcall, ← List.append_nil reads, commandBytes_asked hreads]
        exact fun _ h => nomatch h
      obtain rfl := decides_unique hk hk'
      obtain ⟨byte, hdata, hstored⟩ :=
        readTurn_clean scancode hclean
      obtain ⟨rfl, rfl⟩ : 1 = v ∧ byte = s := by
        simpa using hstored.symm.trans hres
      rw [hcall, commandBytes_asked hreads, d.answers k byte hdata]
      cases hw : d.writeCommand <;> cases ha : d.argument <;>
        simp [writeBack, hw, ha, commandBytes, statusKbc, dataPort,
          writeCommandByte]

/-- It returns an error, and the command 0x60 has not been sent. -/
theorem error_of_refused (h : d.readCommand = false) :
    (∃ n v, (kbcEnableInterrutpt scancode d n).result = some v ∧ v ≠ 0)
      ∧ ∀ n, .write statusKbc writeCommandByte
        ∉ (kbcEnableInterrutpt scancode d n).trace := by
  refine ⟨⟨0, 1, ?_, by decide⟩, fun n => ?_⟩
  · rw [kbcEnableInterrutpt_refused h]
  · rw [kbcEnableInterrutpt_refused h]
    exact List.not_mem_nil

/-- A call whose second command fails has written no command byte. -/
theorem silent_of_refused (hwrite : d.writeCommand = false) (n : Nat) :
    commandBytes false (kbcEnableInterrutpt scancode d n).trace = []
      ∧ .write statusKbc writeCommandByte
        ∉ (kbcEnableInterrutpt scancode d n).trace := by
  cases hread : d.readCommand with
  | false =>
      rw [kbcEnableInterrutpt_refused hread]
      exact ⟨rfl, by simp⟩
  | true =>
      have hback : ∀ s, writeBack s d = ⟨[], some 1⟩ := fun s => by
        simp [writeBack, hwrite]
      obtain ⟨reads, hreads, ⟨hcall, -⟩ | ⟨k, v, s, hk, hres, hcall⟩⟩ :=
        kbcEnableInterrutpt_cases scancode d n hread
      · rw [hcall]
        refine ⟨?_, writeCommandByte_notMem hreads⟩
        rw [← List.append_nil reads, commandBytes_asked hreads]
        rfl
      · rw [hcall, hback, List.append_nil]
        refine ⟨?_, writeCommandByte_notMem hreads⟩
        rw [← List.append_nil reads, commandBytes_asked hreads]
        rfl

/-- A call that a turn has decided goes on to the writes. -/
theorem goes_on (scancode : UInt8) {k : Nat}
    (hread : d.readCommand = true) (hk : d.Decides k) :
    ∃ reads s, kbcEnableInterrutpt scancode d (k + 1)
      = ⟨.write statusKbc readCommand :: (reads ++ (writeBack s d).trace),
        (writeBack s d).result⟩ := by
  obtain ⟨reads, -, ⟨-, hlate⟩ | ⟨k', v, s, -, -, hcall⟩⟩ :=
    kbcEnableInterrutpt_cases scancode d (k + 1) hread
  · exact absurd (hlate k hk) (by omega)
  · exact ⟨reads, s, hcall⟩

/-- There the second command is sent, unless it is refused. -/
theorem sends_of_decides (scancode : UInt8) {k : Nat}
    (hread : d.readCommand = true) (hk : d.Decides k)
    (hwrite : d.writeCommand = true) :
    .write statusKbc writeCommandByte
      ∈ (kbcEnableInterrutpt scancode d (k + 1)).trace := by
  obtain ⟨reads, s, hcall⟩ := goes_on scancode hread hk
  rw [hcall]
  cases ha : d.argument <;> simp [writeBack, hwrite, ha]

/-- If the second command is refused, the call returns an error. -/
theorem returns_error {k : Nat} (hk : d.Decides k)
    (hwrite : d.writeCommand = false) :
    (kbcEnableInterrutpt scancode d (k + 1)).result = some 1 := by
  cases hread : d.readCommand with
  | false => rw [kbcEnableInterrutpt_refused hread]
  | true =>
      obtain ⟨reads, s, hcall⟩ := goes_on scancode hread hk
      rw [hcall]
      simp [writeBack, hwrite]

/-- A call that returns has been refused or decided. -/
theorem decides_of_returns (hread : d.readCommand = true) {v : UInt8}
    (h : (kbcEnableInterrutpt scancode d n).result = some v) :
    ∃ k, d.Decides k := by
  obtain ⟨reads, -, ⟨hcall, -⟩ | ⟨k, v, s, hk, -, -⟩⟩ :=
    kbcEnableInterrutpt_cases scancode d n hread
  · rw [hcall] at h
    cases h
  · exact ⟨k, hk⟩

end

/-- The command byte is kept exactly if the command 0x20 fails, or some
turn of `readData` finds the output buffer full or cannot read the status,
and the first such turn reads the byte without errors or the command 0x60
fails. -/
theorem keepsCommandByte_iff (c scancode : UInt8) (d : Controller c) :
    KeepsCommandByte scancode d ↔ d.readCommand = false
      ∨ ∃ k, d.Decides k
        ∧ ((d.turns k).Clean ∨ d.writeCommand = false) := by
  constructor
  · rintro ⟨-, herror⟩
    rw [Classical.or_iff_not_imp_left, Bool.not_eq_false]
    intro hread
    by_cases hclean : d.ReadCleanly
    · obtain ⟨-, k, hk, hclean⟩ := hclean
      exact ⟨k, hk, .inl hclean⟩
    obtain ⟨⟨n, v, hreturns, -⟩, hsilent⟩ := herror hclean
    obtain ⟨k, hk⟩ := decides_of_returns hread hreturns
    refine ⟨k, hk, .inr ?_⟩
    -- had the second command gone out, the trace would show it
    by_contra hwrite
    rw [Bool.not_eq_false] at hwrite
    exact hsilent (k + 1) (sends_of_decides scancode hread hk hwrite)
  · rintro (hread | ⟨k, hk, hclean | hwrite⟩)
    · refine ⟨fun n => ?_, fun _ => error_of_refused hread⟩
      rw [kbcEnableInterrutpt_refused hread]
      exact fun _ h => nomatch h
    · refine ⟨keeps_of_clean hk hclean, fun hnot => error_of_refused ?_⟩
      by_contra hread
      rw [Bool.not_eq_false] at hread
      exact hnot ⟨hread, k, hk, hclean⟩
    · refine ⟨fun n => ?_, fun _ => ⟨⟨k + 1, 1, ?_, by decide⟩, fun n => ?_⟩⟩
      · rw [(silent_of_refused hwrite n).1]
        exact fun _ h => nomatch h
      · exact returns_error hk hwrite
      · exact (silent_of_refused hwrite n).2

/-- A controller that holds 0x67 and whose status cannot be read. -/
def unread : Controller 0x67 where
  turns := fun _ => ⟨none, none⟩
  answers := nofun
  readCommand := true
  writeCommand := true
  argument := true

/-- The call does not notice: it sets the command byte from the scancode
of the last key and reports success. -/
theorem kbcEnableInterrutpt_unread :
    ¬KeepsCommandByte 0x1E unread
      ∧ kbcEnableInterrutpt 0x1E unread 1
        = ⟨[.write 0x64 0x20, .write 0x64 0x60, .write 0x60 0x1F],
          some 0⟩ := by
  have hcall : kbcEnableInterrutpt 0x1E unread 1
      = ⟨[.write 0x64 0x20, .write 0x64 0x60, .write 0x60 0x1F],
        some 0⟩ := by rfl
  refine ⟨fun h => ?_, hcall⟩
  have hbyte := h.1 1 0x1F
  rw [hcall] at hbyte
  exact absurd (hbyte (by decide)) (by decide)

end Lcom.Proj
