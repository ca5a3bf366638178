import LS8.Proofs.Encoding
import LS8.Proofs.ImageWriting
/-! What a listing keeps of its byte sequence. The addresses count the raw bytes, the raw column is
the sequence, and the text column stands for the same bytes, but for the operand bytes that a last
instruction lacks; these are taken as zero. The raw column, with every byte on a line of its own, is
a program image again. -/

namespace LS8

namespace Listing

variable {addr : Nat} {bytes : List UInt8}

end Listing

end LS8
