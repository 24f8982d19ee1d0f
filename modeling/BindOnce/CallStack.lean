import BindOnce.Failure

/-!
# The active calls

A `CallStack` lists the calls whose bodies are being run, the outermost first, and limits how many
there may be.  Recursion is the only way to repeat something in the language, so the limit is what
turns a program that would run forever into one that fails.

That the limit is respected is part of the type.
-/

set_option autoImplicit false
namespace BindOnce

/-- An active call: the declared name of the function and the line of the call. -/
structure ActiveCall where
  function : String
  line : Line
  deriving DecidableEq, Repr, Inhabited

/-- The active calls, of which there may be `maxDepth`. -/
structure CallStack where
  maxDepth : Nat
  frames : Array ActiveCall := #[]
  size_le : frames.size ≤ maxDepth := by simp

namespace CallStack

/-- How many calls are active. -/
def depth (s : CallStack) : Nat := s.frames.size

/-- How many more calls fit under the limit. -/
def room (s : CallStack) : Nat := s.maxDepth - s.depth

/-- The failure of a call that exceeds the limit. -/
def exceeded (s : CallStack) (frame : ActiveCall) : Failure :=
  { cause := .recursionLimit s.maxDepth frame.function frame.line }

/-- The stack with one more active call.  At the limit the call is refused. -/
def push (s : CallStack) (frame : ActiveCall) : Except Failure CallStack :=
  if h : s.frames.size < s.maxDepth then
    .ok { maxDepth := s.maxDepth, frames := s.frames.push frame,
          size_le := by rw [Array.size_push]; exact h }
  else
    .error (s.exceeded frame)

/-- The stack without the innermost call. -/
def pop (s : CallStack) : CallStack where
  maxDepth := s.maxDepth
  frames := s.frames.pop
  size_le := Nat.le_trans (by simp) s.size_le

theorem push_eq_ok_iff {s t : CallStack} {frame : ActiveCall} :
    s.push frame = .ok t ↔
      s.depth < s.maxDepth ∧ t.maxDepth = s.maxDepth ∧ t.frames = s.frames.push frame := by
  rw [push, depth]
  split
  · rename_i h
    constructor
    · intro e
      cases e
      exact ⟨h, rfl, rfl⟩
    · rintro ⟨-, hd, hf⟩
      cases t
      simp_all
  · rename_i h
    simp [h]

/-- What a call pushes, leaving it takes away. -/
theorem pop_of_push {s t : CallStack} {frame : ActiveCall} (h : s.push frame = .ok t) :
    t.pop = s := by
  obtain ⟨-, hd, hf⟩ := push_eq_ok_iff.1 h
  cases s
  simp_all [pop]

theorem eq_exceeded_of_push {s : CallStack} {frame : ActiveCall} {e : Failure}
    (h : s.push frame = .error e) : e = s.exceeded frame := by
  rw [push] at h
  split at h
  · cases h
  · cases h
    rfl

/-- A call that is pushed leaves less room. -/
theorem room_lt_of_push {s t : CallStack} {frame : ActiveCall} (h : s.push frame = .ok t) :
    t.room < s.room := by
  obtain ⟨hlt, hmax, hframes⟩ := push_eq_ok_iff.1 h
  rw [depth] at hlt
  rw [room, room, depth, depth, hmax, hframes, Array.size_push]
  omega

theorem push_of_room_eq_zero {s : CallStack} (h : s.room = 0) (frame : ActiveCall) :
    s.push frame = .error (s.exceeded frame) := by
  rw [room, depth] at h
  rw [push, dif_neg (by omega)]

theorem push_of_room_eq_succ {s : CallStack} {n : Nat} (h : s.room = n + 1)
    (frame : ActiveCall) : ∃ t : CallStack, s.push frame = .ok t ∧ t.room = n := by
  rw [room, depth] at h
  rw [push, dif_pos (by omega)]
  refine ⟨_, rfl, ?_⟩
  rw [room, depth, Array.size_push]
  dsimp only
  omega

end CallStack
end BindOnce
