import PrjOS.Cli.CommandExecutor
import PrjOS.Properties.Shell

namespace PrjOS

open ByteMemory Registry

section Lines

variable {n : ℕ} {F : Type}

def engineAll (data : CliInternalData n F) :
    List (List Byte) → Except CliFault (List (List (CliEffect F)) × CliInternalData n F)
  | [] => .ok ([], data)
  | buffer :: buffers => do
    let result ← cliEngine data buffer
    let (outputs, data) ← engineAll result.data buffers
    return (result.effects :: outputs, data)

/-- Without directories a line leaves the user in the root. -/
theorem Shell.engine_flat {log : CliLog n F} (hlog : ∀ x ∈ log, x.command.isSome = true)
    (line : List Byte) : ((⟨log, []⟩ : Shell n F).engine line).1 = ⟨log, []⟩ := by
  unfold Shell.engine
  cases argvOf line with
  | nil => rfl
  | cons name parameters =>
    cases hx : (⟨log, []⟩ : Shell n F).find name with
    | none =>
      simp only [hx, Shell.notFound, Shell.builtIn]
      split_ifs <;> rfl
    | some x =>
      obtain ⟨fv, hfv⟩ := Option.isSome_iff_exists.mp (hlog x (Shell.find_mem _ hx).1)
      simp only [hx, hfv]

theorem isCommandOk_zero {buffer : List Byte} (h : isCommandOk buffer = true) :
    0 ∈ buffer.take maxLineLength := by
  unfold isCommandOk at h
  exact (of_decide_eq_true h).1

theorem ShellOf.engineAll {data : CliInternalData n F} {log : CliLog n F}
    (h : ShellOf data ⟨log, []⟩) (hlog : ∀ x ∈ log, x.command.isSome = true)
    {buffers : List (List Byte)} (hok : ∀ buffer ∈ buffers, isCommandOk buffer = true) :
    ∃ outputs data', PrjOS.engineAll data buffers = .ok (outputs, data') ∧
      ShellOf data' ⟨log, []⟩ ∧
      List.Forall₂ (Displays data.serialDriverTid data.serialUITid) outputs
        (buffers.map fun buffer ↦ ((⟨log, []⟩ : Shell n F).engine (cString buffer)).2) := by
  induction buffers generalizing data with
  | nil => exact ⟨[], data, rfl, h, .nil⟩
  | cons buffer buffers ih =>
    obtain ⟨hzero, hlen⟩ :=
      length_cString_take (isCommandOk_zero (hok buffer List.mem_cons_self))
    obtain ⟨data₁, rest, effects, hrun, -, hrep, hdriver, hui, hdisplays⟩ :=
      h.engine hzero fun _ _ hargv _ ↦ (length_of_argvOf hargv).trans_lt hlen
    rw [Shell.engine_flat hlog] at hrep
    obtain ⟨outputs, data₂, hrest, hrep', hmatches⟩ :=
      ih hrep fun b hb ↦ hok b (List.mem_cons_of_mem buffer hb)
    rw [hdriver, hui] at hmatches
    refine ⟨effects :: outputs, data₂, ?_, hrep', .cons hdisplays hmatches⟩
    simp only [PrjOS.engineAll, hrun, bind, Except.bind, hrest]
    rfl

end Lines

/-- However many commands were run before, the command executor does with a line
what it does with it at first, and stays in the root directory. -/
theorem commandExecutor_engine (driver ui : Word) (data : CliInternalData 3 CommandFunction)
    {buffers : List (List Byte)} (hok : ∀ buffer ∈ buffers, isCommandOk buffer = true) :
    ∃ data₀ data₁ outputs data', initCli driver ui data = .ok (.ok, data₀) ∧
      registerCommands data₀ = .ok data₁ ∧ engineAll data₁ buffers = .ok (outputs, data') ∧
      ShellOf data' ⟨commandLog, []⟩ ∧
      List.Forall₂ (Displays driver ui) outputs (buffers.map fun buffer ↦
        ((⟨commandLog, []⟩ : Shell 3 CommandFunction).engine (cString buffer)).2) := by
  obtain ⟨data₀, hinit, h₀, hcurrent, rfl, rfl⟩ :=
    baseCliInit_holds driver ui emptyPrefix_short data
  obtain ⟨data₁, hrun, h₁, hsame⟩ := h₀.runAll commandCalls_proper
  rw [registerAll_commandCalls] at hrun h₁
  have hrep : ShellOf data₁ ⟨commandLog, []⟩ :=
    ⟨h₁, .root, hsame.currentDirectory.trans hcurrent, by decide⟩
  obtain ⟨outputs, data', hengine, hrep', hmatches⟩ := hrep.engineAll (by decide) hok
  rw [hsame.serialDriverTid, hsame.serialUITid] at hmatches
  refine ⟨data₀, data₁, outputs, data', hinit, ?_, hengine, hrep', hmatches⟩
  rw [registerCommands_eq, hrun]
  rfl

theorem commandExecutor_engine_time :
    ∃ data₀ data₁ outputs data', initCli 0 1 CliInternalData.unset = .ok (.ok, data₀) ∧
      registerCommands data₀ = .ok data₁ ∧
      engineAll data₁ [ascii "time" ++ [0]] = .ok (outputs, data') ∧
      ShellOf data' ⟨commandLog, []⟩ ∧
      List.Forall₂ (Displays 0 1) outputs [⟨[], some (.cmdTime, [ascii "time"])⟩] :=
  commandExecutor_engine 0 1 CliInternalData.unset (by decide)

end PrjOS
