/-!
# Settings of packs

What is set for a pack by its name, and a pack directory outside the root of its kind.
-/

namespace PackHost

structure PackSettings where
  enabled : Bool
  description : Option String
deriving DecidableEq, Repr

namespace PackSettings

/-- What holds for a pack for which nothing is set. -/
def default : PackSettings := ⟨true, none⟩

end PackSettings

end PackHost
