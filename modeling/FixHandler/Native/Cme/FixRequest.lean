import Mathlib
import FixHandler.Native.Assist

/-!
# The messages of the replay feed

The FIX messages of `cme/market/message/message_utility.cc` that log on to the replay feed, and ask
it for packets.
-/

namespace FixHandler.Cme.MessageUtility

open Assist (chars calculateFixChecksum)

/-- The tags of a message, each with its end, and their checksum -/
def joinTags (tags : List (List Int8)) : List Int8 :=
  let message := (tags.map (· ++ [1])).flatten
  message ++ calculateFixChecksum message

/-- `Make_fix_logon_message` -/
def makeFixLogonMessage (username password : List Int8) : List Int8 :=
  joinTags [chars "35=A".toList, chars "553=".toList ++ username, chars "554=".toList ++ password]

/-- `Make_fix_recovery_request_message` -/
def makeFixRecoveryRequestMessage (channelId reqId : List Int8) (first last : UInt32) :
    List Int8 :=
  joinTags [chars "35=V".toList, chars "1180=".toList ++ channelId, chars "262=".toList ++ reqId,
    chars "1182=".toList ++ chars first.toNat.repr.toList,
    chars "1183=".toList ++ chars last.toNat.repr.toList]

end FixHandler.Cme.MessageUtility
