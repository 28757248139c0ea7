import Tyro.Prompt.Basic
import Tyro.Text.Backspace

/-!
# The prompt

A session at a terminal, on which backspaces take back what was typed before them.
-/

namespace Tyro.Prompt

/-- All that a session shows for an input, and the status that it ends with. -/
def transcript (fuel : Nat) (input : String) : Option Transcript := do
  let t ← start.runLines Text.eraseBackspaces fuel (lines input.toList)
  return { t with output := greeting ++ t.output }

end Tyro.Prompt
