import Restage.Text.Basic

/-!
# Recorded actions

While a method is converted, every action on an element or on the page is recorded in order.  The
list is what the pattern service is asked about.
-/

namespace Restage

/-- One recorded action: what was done, to what, and with which value. -/
structure Action where
  action : Text
  target : Option Text := none
  value : Option Text := none
  deriving DecidableEq, Repr

end Restage
