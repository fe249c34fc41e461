import CerynthOS.Daemon.Startup
import CerynthOS.Schemes.Files

/-! The state file while it is saved.

    The state is written in place. Until the last byte is written, whoever reads the file finds a
    text that is cut short: the daemon takes it for the default state, and the telemetry for no
    profile at all. -/

namespace CerynthOS.Daemon
open Ipc Json Files

/-- Reading a file with these bytes as text. -/
def Found.ofBytes : Option (List UInt8) → Found
  | none => .missing
  | some bytes =>
    match String.fromUTF8? bytes.toByteArray with
    | some contents => .text contents
    | none => .unreadable

section
variable [Codec] {P : Type} [DecidableEq P]

namespace RuntimeState

/-- The bytes of the state file. -/
def bytes (state : RuntimeState) : List UInt8 := utf8 state.text.toList

/-- What `RuntimeState::save` does to the disk, if the directory is there or can be made, and when
    the text is written in these chunks. -/
def saveSteps (directory : Bool) (path : P) (chunks : List (List UInt8)) :
    List (Step P UInt8) :=
  if directory then writeFile path chunks else []

end RuntimeState

/-- `read_scheduler_profile` of the telemetry. -/
def readSchedulerProfile : Found → Option String
  | .text contents => do
    match (← Codec.fromStr contents).get "profile" with
    | some (.str s) => some s
    | _ => none
  | _ => none

/-- Who reads the file finds one of these two states, complete. -/
def Whole (old new : RuntimeState) (found : Found) : Prop :=
  ∃ state, (state = old ∨ state = new) ∧ persisted found = some state ∧
    RuntimeState.loadFile found = state ∧ readSchedulerProfile found = some (toString state.profile)

omit [Codec] in
theorem ofBytes_utf8 (s : List Char) : Found.ofBytes (some (utf8 s)) = .text (.ofList s) := by
  rw [Found.ofBytes, fromUTF8_utf8]

theorem ofBytes_bytes (state : RuntimeState) :
    Found.ofBytes (some state.bytes) = .text state.text := by
  rw [RuntimeState.bytes, ofBytes_utf8, String.ofList_toList]

/-- The two instants at which the file is whole: before it is truncated and after its last byte. -/
theorem whole_text [LawfulCodec] {old new state : RuntimeState} (h : state = old ∨ state = new) :
    Whole old new (Found.ofBytes (some state.bytes)) := by
  rw [ofBytes_bytes]
  refine ⟨state, h, persisted_text state, RuntimeState.load_text state, ?_⟩
  rw [readSchedulerProfile, RuntimeState.text,
    LawfulCodec.fromStr_toStringPretty _ state.plain_toValue]
  obtain ⟨profile, adaptation, backend⟩ := state
  cases profile <;> rfl

variable [CutCodec]

/-- A text that is cut short is no state to anyone. -/
theorem torn {state : RuntimeState} {p : List UInt8} (hp : p <+: state.bytes)
    (hne : p ≠ state.bytes) :
    persisted (Found.ofBytes (some p)) = none ∧
      RuntimeState.loadFile (Found.ofBytes (some p)) = .default ∧
      readSchedulerProfile (Found.ofBytes (some p)) = none := by
  have hcut : ∀ t, t <+: state.text.toList → t ≠ state.text.toList →
      Codec.fromStr (.ofList t) = none := fun t => CutCodec.fromStr_prefix _ t state.plain_toValue
  rw [Found.ofBytes]
  cases h : String.fromUTF8? p.toByteArray with
  | none =>
    have hempty : Codec.fromStr "" = none := by
      refine hcut [] (List.nil_prefix) fun htext => hne ?_
      rw [RuntimeState.bytes, ← htext] at hp ⊢
      exact List.prefix_nil.mp hp
    refine ⟨rfl, ?_, rfl⟩
    rw [RuntimeState.loadFile, RuntimeState.load, hempty]
    rfl
  | some contents =>
    obtain ⟨t, rfl, ht, rfl⟩ := fromUTF8_prefix hp h
    have hnone := hcut t ht fun htext => hne (congrArg utf8 htext)
    refine ⟨?_, ?_, ?_⟩
    · rw [persisted, hnone, Option.bind_none]
    · rw [RuntimeState.loadFile, RuntimeState.load, hnone]
      rfl
    · rw [readSchedulerProfile, hnone]
      rfl

/-- A reader or a restart finds the old or the new state, complete, exactly when nothing has been
    done to the file yet or all bytes have been written. -/
theorem saved_whole_iff (old new : RuntimeState) (disk : Disk P UInt8) (path : P)
    (hold : disk path = some old.bytes) (directory : Bool) (chunks : List (List UInt8))
    (hchunks : chunks.flatten <+: new.bytes) (k : ℕ) :
    Whole old new
        (Found.ofBytes (after disk (RuntimeState.saveSteps directory path chunks) k path)) ↔
      directory = false ∨ k = 0 ∨ (chunks.take (k - 1)).flatten = new.bytes := by
  have hwhole : Whole old new (Found.ofBytes (some old.bytes)) := whole_text (.inl rfl)
  cases directory with
  | false => simpa [RuntimeState.saveSteps, after, hold] using hwhole
  | true =>
    rw [RuntimeState.saveSteps, if_pos rfl]
    cases k with
    | zero => simpa [after, hold] using hwhole
    | succ k =>
      rw [after_writeFile, Function.update_self, Nat.add_sub_cancel]
      constructor
      · rintro ⟨state, -, hstate, -⟩
        by_contra hcut
        have hprefix : (chunks.take k).flatten <+: new.bytes := by
          refine List.IsPrefix.trans ?_ hchunks
          rw [← List.take_append_drop k chunks, List.flatten_append]
          simp
        rw [(torn hprefix (by tauto)).1] at hstate
        cases hstate
      · rintro (h | h | h)
        · cases h
        · cases h
        · rw [h]
          exact whole_text (.inr rfl)

end

section Example
local instance stateFileCodec : Codec := textCodec

/-- The state before and after the profile is set to `performance`. -/
def quiet : RuntimeState := ⟨.interactive, true, .scx⟩

def fast : RuntimeState := ⟨.performance, true, .scx⟩

/-- A disk with only the state file. -/
def quietDisk : Disk Unit UInt8 := fun _ => some quiet.bytes

theorem whole_fast : Whole quiet fast
    (Found.ofBytes (after quietDisk (RuntimeState.saveSteps true () [fast.bytes]) 2 ())) := by
  rw [@saved_whole_iff textCodec Unit _ textCodec_cut quiet fast quietDisk () rfl true [fast.bytes]
    (by simp) 2]
  exact .inr (.inr (by simp))

/-- Right after the truncation the file is empty. -/
theorem truncated_torn : ¬ ∀ (old new : RuntimeState) (disk : Disk Unit UInt8) (path : Unit)
    (directory : Bool) (chunks : List (List UInt8)) (k : ℕ), disk path = some old.bytes →
    chunks.flatten <+: new.bytes →
    Whole old new
      (Found.ofBytes (after disk (RuntimeState.saveSteps directory path chunks) k path)) := by
  intro h
  obtain ⟨state, -, hstate, -⟩ := h quiet fast quietDisk () true [fast.bytes] 1 rfl (by simp)
  have hne : [] ≠ fast.bytes := by decide +kernel
  have hfound : after quietDisk (RuntimeState.saveSteps true () [fast.bytes]) 1 () = some [] := rfl
  rw [hfound, (@torn textCodec textCodec_cut fast [] List.nil_prefix hne).1] at hstate
  cases hstate

end Example

end CerynthOS.Daemon
