import TwoPass.Pass.Generation
import TwoPass.Pass.Survey

/-!
# Passes over shared tables

A bench keeps one symbol table and one report while passes run over it in any order. Symbols stay from
one first pass to the next, and diagnostics pile up from one second pass to the next until they are
cleared; the output is that of the last second pass alone.
-/

namespace TwoPass

/-- A symbol table and a report that passes share. -/
structure Bench where
  /-- the name of the source -/
  file : SourceName
  /-- the labels bound so far -/
  symbols : SymbolTable
  /-- the diagnostics and warnings so far -/
  report : Report
  /-- the output of the last second pass -/
  output : Output
  deriving DecidableEq

namespace Bench

/-- A bench on which nothing has happened. -/
def fresh (file : SourceName) : Bench := ⟨file, .empty, .empty, .empty⟩

/-- Bind a name by hand. -/
def define (b : Bench) (name : Text) (address : Int) : Bench × List Event :=
  let (symbols, noted) := b.symbols.defineNoting name address
  ({ b with symbols := symbols }, noted)

/-- Run the first pass. -/
def collect (b : Bench) (lines : List Text) : Bench × Survey :=
  let survey := Survey.run b.symbols b.file lines
  ({ b with symbols := survey.symbols }, survey)

/-- Run the second pass. The flags say which streams are open. -/
def generate (b : Bench) (listing load : Bool) (lines : List Text) : Bench × Generation :=
  let generation := Generation.run b.symbols b.file b.report listing load lines
  ({ b with report := generation.report, output := generation.output }, generation)

/-- Forget the diagnostics and warnings. -/
def clearReport (b : Bench) : Bench := { b with report := .empty }

end Bench

end TwoPass
