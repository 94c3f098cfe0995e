import Tabulary.Files.Basic

/-!
A file held open for reading and writing.  Reads go through a window of bytes read ahead, and the
window is not refreshed when the file is changed by others; every write, and every read that meets
the end of the file, discards it.  Main statement: while nobody else changes the file, the window
makes no difference.
-/

namespace Tabulary

/-- Bytes read ahead from the position `start`, of which those before `position` are used up. -/
structure Window where
  start : Nat
  bytes : Bytes
  position : Nat
deriving DecidableEq, Repr

structure Handle where
  node : Nat
  window : Option Window
deriving DecidableEq, Repr

namespace Window

def stop (w : Window) : Nat := w.start + w.bytes.length

/-- Whether a read at a position is served from the window: not once it is used up. -/
def serves (w : Window) (position : Nat) : Bool :=
  w.position < w.stop && w.start ≤ position && position ≤ w.stop

end Window

namespace Handle

/-- How many bytes are read ahead at a time. -/
def blockSize : Nat := 4096

def servingWindow (h : Handle) (position : Nat) : Option Window :=
  h.window.filter (·.serves position)

/-- The bytes from a position on, as a read through the handle sees them. -/
def view (h : Handle) (file : Bytes) (position : Nat) : Bytes :=
  match h.servingWindow position with
  | some w => w.bytes.drop (position - w.start) ++ file.drop w.stop
  | none => file.drop position

/-- The last block of a file that a read from `origin` to `stop` fetches. -/
def lastBlock (file : Bytes) (origin stop : Nat) : Window :=
  let start := origin + (stop - 1 - origin) / blockSize * blockSize
  ⟨start, (file.drop start).take blockSize, stop⟩

/-- The handle after a read from `position` to `stop` that did not meet the end of the file. -/
def advance (h : Handle) (file : Bytes) (position stop : Nat) : Handle :=
  match h.servingWindow position with
  | some w =>
    if stop ≤ w.stop then { h with window := some { w with position := stop } }
    else { h with window := some (lastBlock file w.stop stop) }
  | none => { h with window := some (lastBlock file position stop) }

def discard (h : Handle) : Handle := { h with window := none }

/-- A window agrees with a file when it holds the file's bytes at its place. -/
def Agrees (h : Handle) (file : Bytes) : Prop :=
  ∀ w ∈ h.window, w.bytes = (file.drop w.start).take w.bytes.length

theorem agrees_discard (h : Handle) (file : Bytes) : h.discard.Agrees file := by
  intro w hw
  cases hw

theorem view_eq_drop {h : Handle} {file : Bytes} (ha : h.Agrees file) (position : Nat) :
    h.view file position = file.drop position := by
  unfold view
  split
  · rename_i w hw
    obtain ⟨hw, hs⟩ := Option.filter_eq_some_iff.mp hw
    simp only [Window.serves, Bool.and_eq_true, decide_eq_true_eq] at hs
    have hstart : w.start ≤ position := hs.1.2
    have hstop : position ≤ w.start + w.bytes.length := hs.2
    have hb := ha w hw
    rw [show file.drop w.stop = (file.drop w.start).drop w.bytes.length by
      rw [List.drop_drop]; rfl]
    rw [show file.drop position = (file.drop w.start).drop (position - w.start) by
      rw [List.drop_drop]; congr 1; omega]
    generalize file.drop w.start = rest at hb
    generalize hn : w.bytes.length = n at hb hstop
    rw [hb, List.drop_take]
    rw [show rest.drop n = (rest.drop (position - w.start)).drop (n - (position - w.start)) by
      rw [List.drop_drop]; congr 1; omega]
    exact List.take_append_drop _ _
  · rfl

theorem agrees_lastBlock (node : Nat) (file : Bytes) (origin stop : Nat) :
    Agrees ⟨node, some (lastBlock file origin stop)⟩ file := by
  intro w hw
  cases hw
  simp only [lastBlock, List.length_take]
  rw [List.take_eq_take_iff]
  omega

theorem agrees_advance {h : Handle} {file : Bytes} (ha : h.Agrees file) (position stop : Nat) :
    (h.advance file position stop).Agrees file := by
  unfold advance
  split
  · rename_i w hw
    obtain ⟨hw, -⟩ := Option.filter_eq_some_iff.mp hw
    split
    · intro v hv
      cases hv
      exact ha w hw
    · exact agrees_lastBlock _ _ _ _
  · exact agrees_lastBlock _ _ _ _

end Handle
end Tabulary
