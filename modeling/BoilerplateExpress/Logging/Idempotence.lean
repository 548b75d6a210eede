import BoilerplateExpress.Logging.Detectors

/-!
# Redacting a redacted text

No detector matches the brackets of a marker. So the second call sees again the stretches of the
text that the first one left, each of them by itself now. The surplus of an account number may
hold another one, and a card number may have been taken together with the start of an address:
such a stretch the first call prints and the second one hides.
-/
namespace BoilerplateExpress.Logging

open EventStream (units)
open Regex (scan)
open Marking (leavesAll)
open List

end BoilerplateExpress.Logging
