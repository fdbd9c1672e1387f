import TableApi.Proofs.Engine.Patches
import TableApi.Proofs.View.Placeholders

/-!
# The elements of a list that is updated

All elements of a list are checked before anything is sent (`View.Updatable`). If they pass, there
is one update for each of them, in their order (`View.UpdatesElement`): it sets what the element has
for known columns, in the row of the element's own key, as far as that meets the free conditions of
the view. The ids of the path are not asked for (`handle_patch_elements`).
-/

namespace TableApi

namespace View

variable {d : Dialect} {v : View}

end View

namespace Payload

end Payload

namespace Command

variable {d : Dialect} {v : View} {row : Row}

variable {items : List Json}

end Command

namespace Engine

open Command

variable {e : Engine} {method path query : String} {r : Request} {turns : List Turn}

end Engine

end TableApi
