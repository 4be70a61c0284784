-- SUMMARY: What `fo_execute` sends back, whatever is missing or fails: the result, the request, or nothing at all.
import Netdev.Kernel.Courses
import Netdev.Kernel.Repacking

/-!
# Answering requests

A client waits until a reply to its request arrives. From every failure `fo_execute`
goes to one exit and sends there what `skb` points to: the result, or the request as
it came.
-/

namespace Netdev.Kernel
open Base

section IsAnswered
variable (alloc : ExecAlloc) (env : HandlerEnv) (fresh : FoReq) (acc : ServerAccess) (nlh : NlMessage)

/-! ## What a client is to get -/

/-- The payload holds its header, its args and its data. -/
structure Whole (data : Bytes) : Prop where
  header : FoReq.headerSize ≤ data.length
  args : wireSize data ≠ 0 → FoReq.headerSize + (wireSize data).toNat ≤ data.length
  data : wireSize data ≠ 0 → wireDataSize data ≠ 0 →
    FoReq.headerSize + (wireSize data).toNat + (wireDataSize data).toNat ≤ data.length

end IsAnswered

section Execute
variable {alloc : ExecAlloc} {env : HandlerEnv} {fresh req : FoReq} {acc : ServerAccess} {nlh m : NlMessage}
  {fofun : Option FoHandler}

/-! ## The request -/

end Execute

/-! ## Every message -/

namespace Sample

end Sample

end Netdev.Kernel
