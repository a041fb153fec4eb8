import Weave.Text.Utf8

set_option autoImplicit false
set_option relaxedAutoImplicit false

/-!
# Faults of files

Why a file or a directory cannot be read or written.

## Main definitions

* `Weave.FileFault` — the reasons, with their wording.
-/

namespace Weave

/-- Why a file or a directory cannot be read or written. -/
inductive FileFault where
  | notFound
  | alreadyThere
  | notADirectory
  | isADirectory
  | nameTooLong
  /-- There are too many links on the way along a path. -/
  | tooManyLinks
  /-- The name of a file holds the character with the number zero. -/
  | zeroInName
  /-- The contents of a file are no text. -/
  | notAText
  /-- Any other reason, with its wording. -/
  | other (message : Text)
deriving DecidableEq, Repr

/-- The wording of a reason. -/
def FileFault.message : FileFault → Text
  | notFound => "No such file or directory (os error 2)".toList
  | alreadyThere => "File exists (os error 17)".toList
  | notADirectory => "Not a directory (os error 20)".toList
  | isADirectory => "Is a directory (os error 21)".toList
  | nameTooLong => "File name too long (os error 36)".toList
  | tooManyLinks => "Too many levels of symbolic links (os error 40)".toList
  | zeroInName => "file name contained an unexpected NUL byte".toList
  | notAText => "stream did not contain valid UTF-8".toList
  | other message => message

end Weave
