import Tyro.Text.Bytes
import Tyro.Text.Cluster.Basic

/-!
# Backspaces

A backspace in typed text takes back the cluster that was typed before it. A second one takes back
the cluster before that, and one too many takes back nothing. How much a cluster takes is noted in
one byte when it is typed, so of a cluster of 256 bytes or more only the remainder is taken back.
`eraseBackspaces_of_not_mem` says that a text without backspaces is kept as it is.
-/

namespace Tyro.Text

/-- The backspace character. -/
def backspace : Char := '\x08'

/-- The characters without the last `n` bytes, all with the last one first; nothing if the cut would
fall inside a character. -/
def dropLastBytes? : Nat → List Char → Option (List Char)
  | 0, cs => some cs
  | _ + 1, [] => none
  | n + 1, c :: cs =>
    if c.utf8Size ≤ n + 1 then dropLastBytes? (n + 1 - c.utf8Size) cs else none

/-- A text while it is typed. -/
structure Typed where
  /-- What is kept so far, the last character first. -/
  kept : List Char
  /-- How many bytes each coming backspace takes back, the next one first. -/
  sizes : List Nat

namespace Typed

/-- Types a cluster; nothing if a backspace would leave a part of a character. -/
def press (t : Typed) (cluster : List Char) : Option Typed :=
  if cluster = [backspace] then
    match t.sizes with
    | [] => some t
    | size :: sizes => (dropLastBytes? size t.kept).map (⟨·, sizes⟩)
  else some ⟨cluster.reverse ++ t.kept, byteSize cluster % 256 :: t.sizes⟩

/-- Types clusters one after the other. -/
def pressAll (t : Typed) : List (List Char) → Option Typed
  | [] => some t
  | cluster :: rest =>
    match t.press cluster with
    | some t => t.pressAll rest
    | none => none

/-- Clusters without a backspace among them are all kept. -/
theorem pressAll_of_not_mem {clusters : List (List Char)} (t : Typed)
    (h : [backspace] ∉ clusters) :
    ∃ sizes, t.pressAll clusters = some ⟨clusters.flatten.reverse ++ t.kept, sizes⟩ := by
  induction clusters generalizing t with
  | nil => exact ⟨t.sizes, rfl⟩
  | cons cluster rest ih =>
    have hne : cluster ≠ [backspace] := fun e => h (by simp [e])
    have hrest : [backspace] ∉ rest := fun hm => h (List.mem_cons_of_mem _ hm)
    obtain ⟨sizes, hs⟩ := ih ⟨cluster.reverse ++ t.kept, byteSize cluster % 256 :: t.sizes⟩ hrest
    exact ⟨sizes, by simpa [pressAll, press, hne] using hs⟩

end Typed

/-- The text that typing leaves; nothing if a backspace would leave a part of a character. -/
def eraseBackspaces (cs : List Char) : Option (List Char) :=
  ((Typed.mk [] []).pressAll (clusters cs)).map fun t => t.kept.reverse

/-- A text without backspaces is kept as it is. -/
theorem eraseBackspaces_of_not_mem {cs : List Char} (h : backspace ∉ cs) :
    eraseBackspaces cs = some cs := by
  have hc : [backspace] ∉ clusters cs := fun hm => h <| by
    rw [← flatten_clusters cs]
    exact List.mem_flatten.mpr ⟨[backspace], hm, by simp⟩
  obtain ⟨sizes, hs⟩ := Typed.pressAll_of_not_mem ⟨[], []⟩ hc
  simp [eraseBackspaces, hs, flatten_clusters]

end Tyro.Text
