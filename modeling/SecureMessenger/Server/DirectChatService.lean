import SecureMessenger.Server.MessageService
import SecureMessenger.Lib.Uuid

/-!
# DirectChatService

The functions of `chats/direct_chat_service.py` that open a direct chat.
-/

namespace SecureMessenger
namespace Server

open Lib

/-- A value of type `uuid.UUID`. -/
abbrev Uuid := {id : UUID // Lib.Uuid.Canonical id}

/-- `canonical_user_pair`. -/
def canonical_user_pair (first_user_id second_user_id : Uuid) : Except PyError (UUID × UUID) :=
  if first_user_id = second_user_id then .error .selfChat
  else if Lib.Uuid.toInt first_user_id < Lib.Uuid.toInt second_user_id then
    .ok (first_user_id, second_user_id)
  else .ok (second_user_id, first_user_id)

/-- `get_direct_chat`. -/
def get_direct_chat (requester_id chat_id : UUID) : Session DirectChatView := do
  match ← query (Db.directChat requester_id chat_id) with
  | none => Prog.throw .chatNotFound
  | some view => return view

def insertChat (chat_id : UUID) (db : Db) : Db :=
  { db with chats := db.chats ++ [{ id := chat_id }] }

def insertMembers (chat_id user_low_id user_high_id : UUID) (db : Db) : Db :=
  { db with members := db.members ++ [⟨chat_id, user_low_id⟩, ⟨chat_id, user_high_id⟩] }

def insertPair (chat_id user_low_id user_high_id : UUID) (db : Db) : Db :=
  { db with pairs := db.pairs ++ [⟨chat_id, user_low_id, user_high_id⟩] }

/-- The rows a new chat consists of. -/
def insertDirectChat (chat_id user_low_id user_high_id : UUID) (db : Db) : Db :=
  insertPair chat_id user_low_id user_high_id
    (insertMembers chat_id user_low_id user_high_id (insertChat chat_id db))

/-- The `try` block of `open_direct_chat`: three tables in steps. -/
def create_direct_chat (chat_id user_low_id user_high_id : UUID) : Session Unit := do
  write (insertChat chat_id)
  flush
  write (insertMembers chat_id user_low_id user_high_id)
  flush
  write (insertPair chat_id user_low_id user_high_id)
  commit

/-- `open_direct_chat` for a pair that has no chat yet. -/
def openNewChat (requester_id user_low_id user_high_id : UUID) : Session DirectChatView := do
  let chat_id ← uuid4
  match ← Prog.attempt (create_direct_chat chat_id user_low_id user_high_id) with
  | .error .integrity =>
      rollback
      match ← query (Db.pairChatId user_low_id user_high_id) with
      | none => Prog.throw .integrity
      | some winning_chat_id => get_direct_chat requester_id winning_chat_id
  | .error x => Prog.throw x
  | .ok () => get_direct_chat requester_id chat_id

/-- `open_direct_chat`. -/
def open_direct_chat (requester_id target_user_id : Uuid) : Session DirectChatView := do
  let (user_low_id, user_high_id) ←
    Prog.ofExcept (canonical_user_pair requester_id target_user_id)
  if !(← query (Db.activeUser target_user_id)) then
    Prog.throw .targetUserNotFound
  match ← query (Db.pairChatId user_low_id user_high_id) with
  | some existing_chat_id => get_direct_chat requester_id existing_chat_id
  | none => openNewChat requester_id user_low_id user_high_id

end Server
end SecureMessenger
