import TableParsing.Analysis

/-!
# What is reported while a grammar is analysed

The records of each stage, in the order in which the stages report them.
-/

namespace TableParsing.Journal

open Log (Record)

def first (grammar : Grammar) : List Record := [FirstSets.record (FirstSets.computation grammar)]

def follow (grammar : Grammar) (first : FirstSets) : List Record :=
  [FollowSets.record (FollowSets.computation grammar first)]

def predictive (outcome : Except Predictive.Conflict Predictive.Parser) : List Record :=
  match outcome with
  | .ok parser => [parser.table.record]
  | .error _ => []

def shiftReduce (grammar : Grammar) (outcome : Except ShiftReduce.Conflict ShiftReduce.Parser) :
    List Record :=
  (ShiftReduce.Automaton.ofGrammar grammar).record ::
    match outcome with
    | .ok parser => [parser.table.record]
    | .error _ => []

def analysis (grammar : Grammar) (analysed : Analysis) : List Record :=
  first grammar ++ follow grammar analysed.first ++ predictive analysed.ll1 ++
    shiftReduce grammar analysed.slr1 ++ [⟨.debug, analysed.grammarClass.text⟩]

end TableParsing.Journal
