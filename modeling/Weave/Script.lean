import Weave.Chunk.Basic
import Weave.Text.Lines

set_option autoImplicit false
set_option relaxedAutoImplicit false

/-!
# Scripts

A script is the code of a source alone. Its prose can be kept as comments.

## Main definitions

* `Weave.Script.ofChunks` — the script of a list of chunks.
-/

namespace Weave.Script

/-- The lines that a chunk has in a script. A chunk of prose has none unless comments are kept. -/
def linesOfChunk? (keepComments : Bool) : Chunk → Option (List Text)
  | .code lines _ => some lines
  | .prose lines => if keepComments then some (lines.map ProseLine.toComment) else none

/-- **The script of a list of chunks.** A blank line separates the chunks. -/
def ofChunks (keepComments : Bool) (cs : List Chunk) : Text :=
  Text.endInOneLineFeed <|
    (cs.filterMap (linesOfChunk? keepComments)).flatMap fun lines => Text.writeLines lines ++ ['\n']

end Weave.Script
