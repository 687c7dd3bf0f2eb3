import Emend.Edit.Merge
import Emend.Text.Blank
import Emend.Text.Quoted

/-!
# Short forms for reports

Reports show messages and anchors on one line and cut what is long; an ellipsis stands for the rest.
-/

namespace Emend

/-- The first `limit` characters; a negative limit leaves out that many at the end. -/
def Text.clip (limit : Int) (t : Text) : Text :=
  match limit with
  | .ofNat n => t.take n
  | .negSucc n => t.take (t.length - (n + 1))

/-- An ellipsis if `cut`. -/
def Text.ellipsis (isCut : Bool) : Text := if isCut then ['…'] else []

/-- A message on one line, cut behind `limit` characters. -/
def Text.summary (limit : Int) (t : Text) : Text :=
  match Text.strip t with
  | [] => "(empty message)".toList
  | body => (Text.onOneLine body).clip limit ++ Text.ellipsis (decide (limit < body.length))

/-- The length at which a message is cut. -/
def Text.summaryLimit : Int := 120

/-- The length at which an anchor is cut. -/
def Anchor.previewLimit : Nat := 60

/-- The first line of an anchor, cut when it is long or when more lines follow. -/
def Anchor.preview (anchor : Text) : Text :=
  match Text.strip anchor with
  | [] => ['-']
  | body =>
    let first := body.takeWhile (!Text.isLineBreak ·)
    let isCut := decide (previewLimit < first.length) || body.contains '\n'
    first.take previewLimit ++ Text.ellipsis isCut

/-- Names an anchor of an instruction in a report, if it has one. -/
def Anchor.mention (name : String) (anchor : Option Text) : List Text :=
  match anchor.getD [] with
  | [] => []
  | a => [name.toList ++ '=' :: Text.quoted (preview a)]

/-- Which instruction fared how, with its anchors. `index` counts from 0 and the report from 1. -/
def Instruction.report (index : Int) (i : Instruction) (outcome : Except MergeError Edited) : Text :=
  let head := "instruction #".toList ++ Text.ofInt (index + 1) ++ " (".toList ++
    MergeError.summary i.operation outcome ++ [')']
  Text.joinWith [' '] (head :: Anchor.mention "anchor" i.anchor ++
    Anchor.mention "anchor_end" i.anchorEnd)

/-- Why a list of instructions stopped. -/
def FailedStep.report (f : FailedStep) : Text :=
  f.instruction.report f.index (.error f.error)

end Emend
