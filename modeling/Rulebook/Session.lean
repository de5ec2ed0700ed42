/-
# What applications change

Applying a rule changes three things besides producing an outcome: the stack
of active labels, the trace, and the cells of deferred rules. A session holds
all three and is threaded through every application.

A deferred rule is built on first use and kept. The rules built so far live in
frames: building a rule opens a new frame, in which each deferred rule of its
description has a cell. A cell is empty until it is first used; from then on
it holds the frame of the rule that was built for it.
-/

import Std.Data.HashMap
import Rulebook.Context
import Rulebook.Trace

namespace Rulebook

/-- The place of one deferred rule: the frame of the rule that contains it,
and its number there. -/
structure Cell where
  frame : Nat
  number : Nat
  deriving DecidableEq, Hashable, Inhabited, Repr

/-- The cells filled so far, each with the frame of the rule in it. -/
structure Cells where
  filled : Std.HashMap Cell Nat
  /-- The number of frames opened; the next frame has this number. -/
  frames : Nat
  /-- How often a deferred rule was built. -/
  builds : Nat

namespace Cells

/-- No cell is filled, and only frame 0, that of the outermost rule, is
open. -/
def initial : Cells := ⟨∅, 1, 0⟩

/-- The frame of the rule in a cell, if it was built already. -/
def find? (cells : Cells) (cell : Cell) : Option Nat :=
  cells.filled[cell]?

/-- Open a frame for a rule that belongs to no cell. -/
def openFrame (cells : Cells) : Nat × Cells :=
  (cells.frames, { cells with frames := cells.frames + 1 })

/-- Build the rule of a cell: its frame, and the cells with it filled in. -/
def fill (cells : Cells) (cell : Cell) : Nat × Cells :=
  (cells.frames,
    { filled := cells.filled.insert cell cells.frames
      frames := cells.frames + 1
      builds := cells.builds + 1 })

/-- The frame of the rule in a cell, which is built now if the cell is
empty. -/
def frameOf (cell : Cell) (cells : Cells) : Nat × Cells :=
  match cells.find? cell with
  | some frame => (frame, cells)
  | none => cells.fill cell

@[simp]
theorem find?_initial (cell : Cell) : initial.find? cell = none := by
  simp [find?, initial]

theorem find?_fill (cells : Cells) (cell other : Cell) :
    (cells.fill cell).2.find? other =
      if cell = other then some cells.frames else cells.find? other := by
  simp [find?, fill, Std.HashMap.getElem?_insert]

end Cells

/-- The state that applications of rules thread through. -/
structure Session where
  context : Context
  trace : Array Record
  cells : Cells

namespace Session

/-- Nothing has been applied yet. -/
def initial : Session := ⟨∅, #[], .initial⟩

/-- Add a record to the trace, if the verbosity includes it. -/
def record (session : Session) (verbosity : Verbosity) (entry : Record) :
    Session :=
  if verbosity.debugs then { session with trace := session.trace.push entry }
  else session

/-- Put a label on the stack. -/
def enter (session : Session) (label : String) : Guard × Session :=
  ((session.context.enter label).1,
    { session with context := (session.context.enter label).2 })

/-- Cut the stack of labels down to what it was when `guard` was handed out. -/
def release (session : Session) (guard : Guard) : Session :=
  { session with context := session.context.release guard }

/-- The same session with an empty stack of labels, as every new input
starts. -/
def withFreshContext (session : Session) : Session :=
  { session with context := ∅ }

end Session

end Rulebook
