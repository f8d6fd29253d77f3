import OpStubs.Dictionary
import OpStubs.Json.Decode

namespace OpStubs.Json

/-- The texts of an object by its keys. Of members with the same key the last counts. -/
def Reader.dictionary : Reader Dictionary
  | room, .object members ending =>
    if room = 0 then .error .malformed
    else do
      let entries ← members.mapM fun (key, t) => do
        return (String.ofList (← key), ← Reader.string (room - 1) t)
      checkRead ending
      return .ofList entries
  | _, t => misfit t

def dictionary (text : String) : Except Fault Dictionary := parse Reader.dictionary text

end OpStubs.Json
