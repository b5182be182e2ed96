import ScalableServer.OneToOne.Interrupts
import ScalableServer.PollServer.Interrupts
import ScalableServer.ProcessServer.Interrupts
import ScalableServer.UnreadMessages

/-! A signal in the three servers, at any step of any run. After it `run_server` has the calls of one
pass of its loop left. Each of them returns unless it waits for a client, for another process or, in
a `poll` that was entered after the loop had tested `GOGO`, for whatever may come. -/

namespace ScalableServer

open ScalableServer.Foundations ScalableServer.Core

end ScalableServer
