import AnswerKey.Text.Search

namespace AnswerKey.CommandLine

structure Complaint where
  message : String
  causes : List String := []
deriving DecidableEq

def hanging (indent text : String) : String :=
  ("\n" ++ indent).intercalate ((Text.splitOn '\n' text.toList).map String.ofList)

/-- Causes are numbered where there are several. -/
def causesText : List String → String
  | [] => ""
  | [cause] => "\n\nCaused by:\n    " ++ hanging "    " cause
  | causes =>
    "\n\nCaused by:" ++ .join (causes.zipIdx.map fun (cause, i) ↦
      let number := toString i
      "\n" ++ .ofList (List.replicate (5 - number.length) ' ') ++ number ++ ": " ++ hanging "       " cause)

def Complaint.text (c : Complaint) : String := "Error: " ++ c.message ++ causesText c.causes ++ "\n"

end AnswerKey.CommandLine
