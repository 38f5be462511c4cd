import NonokaIM.Model.Topic

/-! The shared authorizer of topics. -/

namespace NonokaIM

/-- The group repository, if there is one; its `ListMembers` may return nil entries. -/
structure TopicAuthorizer where
  groups : Option (String → Except String (List (Option Int)))

def TopicAuthorizer.canAccessTopic (a : TopicAuthorizer) (userID : Int) (raw : String) :
    Except String Unit :=
  if userID ≤ 0 then .error "authentication required"
  else
    match normalizeTopic raw with
    | .error e => .error e
    | .ok t =>
      match parseTopicType t with
      | .p2p =>
        match extractUserIDsFromP2PTopic t with
        | .error e => .error e
        | .ok (x, y) =>
          if userID ≠ x ∧ userID ≠ y then .error "topic access denied" else .ok ()
      | .group =>
        match extractGroupID t, a.groups with
        | .error e, _ => .error e
        | .ok _, none => .error "group authorization unavailable"
        | .ok gid, some listMembers =>
          match listMembers gid with
          | .error e => .error ("check group membership: " ++ e)
          | .ok members =>
            if some userID ∈ members then .ok () else .error "topic access denied"
      | .system =>
        -- system topics are user scoped
        if parseInt64 (t.toList.drop 4) = some userID then .ok ()
        else .error "topic access denied"
      | .unknown => .error "invalid topic"

example : (TopicAuthorizer.mk none).canAccessTopic 1 "p2p_2_1" = .ok () := by decide

example : (TopicAuthorizer.mk none).canAccessTopic 4 "sys_4suffix" =
    .error "topic access denied" := by decide

end NonokaIM
