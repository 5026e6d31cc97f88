import SecureMessenger.Server.MessageService

/-!
# ChatReadService

`advance` and `page` of `chats/read_service.py`.  Adding the row to the session is a
write that the next query flushes; only `advance` writes `chat_read_states`.
-/

namespace SecureMessenger
namespace Server

open Lib

/-- The row an advance inserts, or the update of the row it has read. -/
def storeReadState (state : Option ChatReadState) (chat_id user_id : UUID)
    (last_read_seq : Int) (now : Instant) (db : Db) : Db :=
  match state with
  | none =>
      { db with
        readStates := db.readStates ++
          [{ chat_id, user_id, last_read_seq, updated_at := now }] }
  | some s =>
      { db with
        readStates := db.readStates.map fun r =>
          if r.chat_id = s.chat_id ∧ r.user_id = s.user_id then
            { r with last_read_seq := last_read_seq, updated_at := now }
          else r }

/-- The devices of the two users, in the order of the loop. -/
def notified_devices : List UUID → Session (List UUID)
  | [] => return []
  | user_id :: rest => do
      let devices ← query (Db.activeDevices user_id)
      let others ← notified_devices rest
      return devices.map (·.id) ++ others

/-- A position other than 0 must be that of a message. -/
def position_known (chat_id : UUID) (last_read_seq : Int) : Session Bool :=
  if last_read_seq = 0 then return true
  else query (Db.chatPositionExists chat_id last_read_seq)

/-- The end of `advance`, with the row it has read. -/
def saveReadState (principal : Principal) (chat_id : UUID) (last_read_seq : Int)
    (other_user_id : UUID) (state : Option ChatReadState) : Session ReadState := do
  if (state.map (·.last_read_seq)).getD 0 < last_read_seq then
    let now ← utcNow
    write (storeReadState state chat_id principal.user_id last_read_seq now)
    flush
    let devices ← notified_devices [principal.user_id, other_user_id]
    commit
    publishAll devices
    return ⟨chat_id, principal.user_id, last_read_seq, some now⟩
  else
    commit
    return ⟨chat_id, principal.user_id, (state.map (·.last_read_seq)).getD 0,
      state.map (·.updated_at)⟩

/-- The part of `advance` under the chat lock. -/
def advanceLocked (principal : Principal) (chat_id : UUID) (last_read_seq : Int)
    (other_user_id : UUID) (chat : Chat) : Session ReadState := do
  if last_read_seq < 0 ∨ (chat.last_message_seq : Int) < last_read_seq then
    Prog.throw .invalidReadPosition
  if !(← position_known chat_id last_read_seq) then
    Prog.throw .invalidReadPosition
  let state ← query (Db.readState chat_id principal.user_id)
  saveReadState principal chat_id last_read_seq other_user_id state

/-- `advance`. -/
def advance (principal : Principal) (chat_id : UUID) (last_read_seq : Int) :
    Session ReadState := do
  match ← query (Db.otherUserId principal.user_id chat_id) with
  | none => Prog.throw .chatNotFound
  | some other_user_id =>
      match ← lock_chat principal.user_id chat_id with
      | none => Prog.throw .chatNotFound
      | some chat => advanceLocked principal chat_id last_read_seq other_user_id chat

/-- A chat with the positions of its members. -/
def chatState (chat : Chat) (members : List ChatMember) (states : List ChatReadState) :
    ChatState where
  chat_id := chat.id
  last_message_seq := chat.last_message_seq
  read_states := members.map fun member =>
    let state := states.find? fun r =>
      decide (r.chat_id = member.chat_id ∧ r.user_id = member.user_id)
    ⟨chat.id, member.user_id, (state.map (·.last_read_seq)).getD 0, state.map (·.updated_at)⟩

/-- `page`: the chats, then their members, then the positions. -/
def states_page (principal : Principal) (after_chat_id : Option UUID) (limit : Nat) :
    Session ChatStatesPage := do
  let chats ← query (Db.chatRows principal.user_id after_chat_id limit)
  let members ← query fun db => fun chat_id => db.membersOf chat_id
  let states ← query fun db => db.readStates
  return {
    states := (chats.take limit).map fun c => chatState c (members c.id) states
    next_chat_id := ((chats.take limit).getLast?.map (·.id)).or after_chat_id
    has_more := decide (chats.length > limit) }

end Server
end SecureMessenger
