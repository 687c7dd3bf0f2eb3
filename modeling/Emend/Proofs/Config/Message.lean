import Emend.Config.Basic
import Emend.Proofs.Text.Template

/-!
# The default message

The default template can be filled for every path and operation.
-/

namespace Emend.Config

/-- The template that is used unless another one is set. -/
def defaultMessage : Text := ({} : Config).commitMessage

theorem defaultMessage_eq : defaultMessage =
    "patchflow: ".toList ++ '{' :: ("operation".toList ++ '}' ::
      ([' '] ++ '{' :: ("path".toList ++ '}' :: []))) := rfl

/-- **The default template is filled** with the operation's name and the path. -/
theorem messageFor_default {c : Config} (hc : c.commitMessage = defaultMessage) (path : Text)
    (op : Operation) :
    c.messageFor path op = .ok ("patchflow: ".toList ++ op.name.toList ++ [' '] ++ path) := by
  rw [messageFor, fillMessage, Template.fill, hc, Template.fillDeep]
  change Template.fillPieces _ _ ("patchflow: ".toList.length + 19) defaultMessage = _
  rw [defaultMessage_eq, Template.fillPieces_literals (by decide),
    Template.fillPieces_plain (v := op.name.toList) (by decide) (by decide) (by decide) (by rfl)]
  change _ <$> _ <$> Template.fillPieces _ _ ([' '].length + 17) _ = _
  rw [Template.fillPieces_literals (by decide),
    Template.fillPieces_plain (v := path) (by decide) (by decide) (by decide) (by rfl)]
  change (_ <$> _ <$> _ <$> _ <$> Except.ok [] : Except _ _) = _
  simp

end Emend.Config
