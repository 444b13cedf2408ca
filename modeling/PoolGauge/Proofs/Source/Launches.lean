import PoolGauge.Proofs.Text.Utf8
import PoolGauge.Source.Commands

/-!
# What comes of launches

A call that runs a program hears its output or of one failure, and the launch alone decides which.
The output is taken if the program succeeded; of the properties of datasets a part is enough.
-/
namespace PoolGauge

namespace Launch

/-- A program gives a text: it was started and ended in time, the bytes of the text are its output,
and it succeeded, unless partial output will do and not all of it is blank. -/
def Gives (launch : Launch) (partialOutput : Bool) (text : String) : Prop :=
  ∃ stderr ending, launch = .ended (Text.bytes text) stderr ending ∧
    (ending = .exited 0 ∨ partialOutput = true ∧ ∃ c ∈ text.toList, Text.isBlank c = false)

/-- What is heard of a launch: a text that the program gives, or else the first thing that went
wrong. The program was not started, or did not end in time, or its output is no text, or it did not
succeed. -/
structure Hears (launch : Launch) (line : String) (limit : Duration) (partialOutput : Bool)
    (heard : Except Failure String) : Prop where
  text : ∀ text, heard = .ok text ↔ launch.Gives partialOutput text
  spawn : ∀ command reason, heard = .error (.spawn command reason) ↔
    command = line ∧ launch = .refused reason
  timeout : ∀ operation bound, heard = .error (.timeout operation bound) ↔
    operation = line ∧ bound = limit ∧ launch = .hung
  command : ∀ failure, heard = .error failure →
    ((∃ reason, failure = .command line reason) ↔
      ∃ stdout stderr ending, launch = .ended stdout stderr ending)
  undecodable : ∀ stdout stderr ending, launch = .ended stdout stderr ending →
    (∀ text, stdout ≠ Text.bytes text) → ∃ fault : Text.Utf8.Fault,
      heard = .error (.command line ("non UTF-8 output: " ++ fault.message))
  unsuccessful : ∀ text stderr ending, launch = .ended (Text.bytes text) stderr ending →
    ¬ launch.Gives partialOutput text → heard = .error (.command line
      (ending.text ++ ": " ++ String.ofList (Text.trim (Text.Utf8.decodeLenient stderr))))

variable {launch : Launch} {partialOutput : Bool} {text : String} {stdout stderr : List UInt8}
  {ending : Ending}

/-- A program that has not ended gives no text. -/
theorem not_gives (h : ∀ stdout stderr ending, launch ≠ .ended stdout stderr ending) :
    ¬ launch.Gives partialOutput text := by
  rintro ⟨stderr, ending, heq, -⟩
  exact h _ _ _ heq

theorem gives_ended_iff : (ended stdout stderr ending).Gives partialOutput text ↔
    stdout = Text.bytes text ∧
      (ending = .exited 0 ∨ (partialOutput ∧ ¬ text.toList.all Text.isBlank)) := by
  simp only [Gives, ended.injEq, List.all_eq_true, not_forall, Bool.not_eq_true, exists_prop]
  constructor
  · rintro ⟨_, _, ⟨rfl, rfl, rfl⟩, h⟩
    exact ⟨rfl, h⟩
  · rintro ⟨rfl, h⟩
    exact ⟨stderr, ending, ⟨rfl, rfl, rfl⟩, h⟩

section Output

variable (line : String) (limit : Duration) (partialOutput : Bool)

theorem hears_refused (reason : String) : (refused reason).Hears line limit partialOutput
    ((refused reason).output line limit partialOutput) where
  text text := iff_of_false nofun (not_gives nofun)
  spawn command other := by
    rw [output, Except.error.injEq, Failure.spawn.injEq, refused.injEq, @eq_comm _ line,
      @eq_comm _ reason]
  timeout operation bound := iff_of_false nofun fun h => nomatch h.2.2
  command failure h := by
    obtain rfl := Except.error.inj h
    exact iff_of_false nofun nofun
  undecodable := nofun
  unsuccessful := nofun

theorem hears_hung : hung.Hears line limit partialOutput (hung.output line limit partialOutput) where
  text text := iff_of_false nofun (not_gives nofun)
  spawn command other := iff_of_false nofun fun h => nomatch h.2
  timeout operation bound := by
    rw [output, Except.error.injEq, Failure.timeout.injEq, @eq_comm _ line, @eq_comm _ limit]
    simp
  command failure h := by
    obtain rfl := Except.error.inj h
    exact iff_of_false nofun nofun
  undecodable := nofun
  unsuccessful := nofun

/-- Bytes that are no text are refused before the ending is looked at. -/
theorem hears_undecodable (stderr : List UInt8) (ending : Ending) {fault : Text.Utf8.Fault}
    (hfault : Text.Utf8.decode stdout = .error fault) :
    (ended stdout stderr ending).Hears line limit partialOutput
      ((ended stdout stderr ending).output line limit partialOutput) := by
  have hnone : ∀ text, stdout ≠ Text.bytes text := fun text heq =>
    nomatch hfault.symm.trans (Text.Utf8.decode_eq_ok_iff.mpr heq)
  have hheard : (ended stdout stderr ending).output line limit partialOutput =
      .error (.command line ("non UTF-8 output: " ++ fault.message)) := by
    rw [output, hfault]
  rw [hheard]
  exact {
    text := fun text => iff_of_false nofun fun h => hnone text (gives_ended_iff.mp h).1
    spawn := fun command other => iff_of_false nofun fun h => nomatch h.2
    timeout := fun operation bound => iff_of_false nofun fun h => nomatch h.2.2
    command := fun failure h => iff_of_true ⟨_, (Except.error.inj h).symm⟩ ⟨_, _, _, rfl⟩
    undecodable := fun _ _ _ _ _ => ⟨fault, rfl⟩
    unsuccessful := fun text _ _ heq => absurd (ended.inj heq).1 (hnone text) }

theorem output_of_text (text : String) (stderr : List UInt8) (ending : Ending) :
    (ended (Text.bytes text) stderr ending).output line limit partialOutput =
      if ending = .exited 0 ∨ (partialOutput ∧ ¬ text.toList.all Text.isBlank) then .ok text
      else .error (.command line (ending.text ++ ": " ++
        String.ofList (Text.trim (Text.Utf8.decodeLenient stderr)))) := by
  rw [output, Text.Utf8.decode_eq_ok_iff.mpr rfl]

theorem bytes_inj {s t : String} (h : Text.bytes s = Text.bytes t) : s = t :=
  Except.ok.inj ((Text.Utf8.decode_eq_ok_iff.mpr rfl).symm.trans (Text.Utf8.decode_eq_ok_iff.mpr h))

theorem hears_text (text : String) (stderr : List UInt8) (ending : Ending) :
    (ended (Text.bytes text) stderr ending).Hears line limit partialOutput
      ((ended (Text.bytes text) stderr ending).output line limit partialOutput) := by
  rw [output_of_text]
  by_cases htaken : ending = .exited 0 ∨ (partialOutput ∧ ¬ text.toList.all Text.isBlank)
  · rw [if_pos htaken]
    exact {
      text := fun other => by
        rw [Except.ok.injEq, gives_ended_iff]
        exact ⟨fun heq => heq ▸ ⟨rfl, htaken⟩, fun h => bytes_inj h.1⟩
      spawn := fun command other => iff_of_false nofun fun h => nomatch h.2
      timeout := fun operation bound => iff_of_false nofun fun h => nomatch h.2.2
      command := nofun
      undecodable := fun _ _ _ heq hnone => absurd (ended.inj heq).1.symm (hnone text)
      unsuccessful := fun other _ _ heq hnot => by
        obtain rfl := bytes_inj (ended.inj heq).1
        exact absurd (gives_ended_iff.mpr ⟨rfl, htaken⟩) hnot }
  · rw [if_neg htaken]
    exact {
      text := fun other => iff_of_false nofun fun h => by
        obtain ⟨heq, hother⟩ := gives_ended_iff.mp h
        obtain rfl := bytes_inj heq
        exact htaken hother
      spawn := fun command other => iff_of_false nofun fun h => nomatch h.2
      timeout := fun operation bound => iff_of_false nofun fun h => nomatch h.2.2
      command := fun failure h => iff_of_true ⟨_, (Except.error.inj h).symm⟩ ⟨_, _, _, rfl⟩
      undecodable := fun _ _ _ heq hnone => absurd (ended.inj heq).1.symm (hnone text)
      unsuccessful := fun other _ _ heq _ => by
        obtain ⟨-, rfl, rfl⟩ := ended.inj heq
        rfl }

/-- What is heard of a launch is what its output is taken for. -/
theorem hears_output (launch : Launch) : launch.Hears line limit partialOutput
    (launch.output line limit partialOutput) := by
  cases launch with
  | refused reason => exact hears_refused line limit partialOutput reason
  | hung => exact hears_hung line limit partialOutput
  | ended stdout stderr ending =>
    cases hdecode : Text.Utf8.decode stdout with
    | error fault => exact hears_undecodable line limit partialOutput stderr ending hdecode
    | ok text =>
      obtain rfl := Text.Utf8.decode_eq_ok_iff.mp hdecode
      exact hears_text line limit partialOutput text stderr ending

end Output

end Launch

namespace Host

/-- A program is started unless an argument has a null character in it. -/
theorem launch_eq_start (host : Host) {command : CommandLine}
    (h : ∀ argument ∈ command.arguments, '\x00' ∉ argument.toList) :
    host.launch command = host.start command := by
  refine if_neg fun hany => ?_
  obtain ⟨argument, hmem, hnull⟩ := List.any_eq_true.mp hany
  rw [String.contains_char_eq, decide_eq_true_iff] at hnull
  exact h argument hmem hnull

/-- What is heard of a program that a host runs. -/
def Hears (host : Host) (command : CommandLine) (partialOutput : Bool)
    (heard : Except Failure String) : Prop :=
  (host.launch command).Hears command.text host.limit partialOutput heard

/-- The reply to a question for a list: a text that is heard, or the wording of a failure that is
heard, as a failure to list anything. -/
def Lists (host : Host) (command : CommandLine) (reply : Except Failure String) : Prop :=
  ∃ heard, host.Hears command false heard ∧
    (∀ text, reply = .ok text ↔ heard = .ok text) ∧
    ∀ failure, reply = .error failure ↔
      ∃ cause, heard = .error cause ∧ failure = .unavailable cause.message

theorem lists_list (host : Host) (command : CommandLine) :
    host.Lists command (host.list command) := by
  refine ⟨host.run command false, Launch.hears_output _ _ _ _, fun text => ?_, fun failure => ?_⟩
  · rw [list]
    cases host.run command false <;> simp [Except.mapError]
  · rw [list]
    cases host.run command false <;> simp [Except.mapError, eq_comm]

/-- Whatever a host's programs do, the reply to a question that runs one is what is heard of it.
Partial output will do for the properties of datasets only, and a failure to list pools or datasets
keeps no more than the wording of its cause. -/
theorem replies_of_launches (host : Host) :
    (∀ pool, host.Hears (.poolStatus pool) false (host.reply (.poolStatus pool))) ∧
    (∀ pool, host.Hears (.vdevProperties pool) false (host.reply (.vdevProperties pool))) ∧
    (∀ names, host.Hears (.datasetProperties names) true
      (host.reply (.datasetProperties names))) ∧
    host.Lists .listPools (host.reply .listPools) ∧
    host.Lists .listDatasets (host.reply .listDatasets) :=
  ⟨fun _ => Launch.hears_output _ _ _ _, fun _ => Launch.hears_output _ _ _ _,
    fun _ => Launch.hears_output _ _ _ _, host.lists_list _, host.lists_list _⟩

end Host

end PoolGauge
