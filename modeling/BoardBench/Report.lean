import BoardBench.Report.Stamp
import BoardBench.Text.Search

/-!
# Reports

A report is a text in two blocks, each under a banner: the summaries one after another, then the
transcripts with a blank line between them. Its name carries the time and the id of the board under
test.

The name is the time and the id with fixed texts around them, and nothing in the id is replaced. So
the id is part of a path when the report is written.
-/

set_option autoImplicit false

namespace BoardBench

/-- What a board test leaves behind. -/
structure Report where
  created : Stamp
  sutId : String
  summaries : List String
  transcripts : List String
deriving Repr, DecidableEq

namespace Report

def rule : String := "======================"

/-- A block: its heading as a banner, and its body. -/
def block (heading body : String) : String :=
  "\n" ++ Text.joined "\n" [rule, heading, rule] ++ "\n" ++ body ++ "\n"

def results (r : Report) : String :=
  block "||   TEST RESULTS   ||" (Text.joined "\n" r.summaries)

def logs (r : Report) : String :=
  block "||       LOGS       ||" (Text.joined "\n\n" r.transcripts)

def contents (r : Report) : String :=
  r.results ++ r.logs

/-- What stands between the time and the id in the name of a report. -/
def nameMiddle : String := "_ardep_board_"

def nameEnd : String := "_hw_test_results.txt"

def fileName (r : Report) : String :=
  r.created.render ++ nameMiddle ++ r.sutId ++ nameEnd

end Report

end BoardBench
