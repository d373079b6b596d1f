set_option autoImplicit false

namespace Lvqr

inductive RelayEvent where
  | broadcastStarted (name : String)
  | broadcastStopped (name : String)
deriving DecidableEq, Repr

end Lvqr
