import TenantStore.Entity.User
import TenantStore.Proofs.Document.Codec

/-!
# Users are lawful entities

The JSON value of a user is an object with the user's four members, and it reads as the user.
-/

namespace TenantStore.User

theorem integer?_ofInt_toInt (n : Int64) : (Json.ofInt n.toInt).integer? = some n.toInt := by
  rw [Json.ofInt, Json.integer?, if_pos ⟨n.le_toInt, n.toInt_lt⟩]

/-- The JSON value of a user is of the contract, and nothing in it is changed by reading it. -/
theorem conform_toJson (u : User) : schema.conform (toJson u) = .ok (toJson u) := by
  have hage := integer?_ofInt_toInt u.age
  have hwritten : toJson u =
      .object
        [("age", Json.ofInt u.age.toInt), ("id", .string u.id), ("name", .string u.name),
          ("tenantId", .string u.tenantId)] :=
    rfl
  have hread : schema.conform (toJson u) =
      .ok (Json.ofMembers
        [("id", .string u.id), ("tenantId", .string u.tenantId), ("name", .string u.name),
          ("age", Json.ofInt u.age.toInt)]) := by
    simp [hwritten, schema, Schema.conform, Schema.conformMember, Schema.required, Schema.string,
      Schema.complete, List.filterMapM, List.filterMapM.loop, hage, Members.get?, bind,
      Except.bind, Except.map, pure, Except.pure, Json.ofMembers, Members.ofList]
  exact hread

/-- The JSON value of a user reads as the user. -/
theorem ofJson_toJson (u : User) : ofJson (toJson u) = .ok u := by
  have hage : Json.integerAt ((toJson u).members?.getD []) "age" = u.age.toInt := by
    show (Json.ofInt u.age.toInt).integer?.getD 0 = _
    rw [integer?_ofInt_toInt]
    rfl
  rw [ofJson, conform_toJson]
  show Except.ok (User.mk u.id u.tenantId u.name
    (Int64.ofInt (Json.integerAt ((toJson u).members?.getD []) "age"))) = _
  rw [hage, Int64.ofInt_toInt]

instance : LawfulEntity User where
  exists_members _ := ⟨Members.ofList _, rfl, Members.Sorted.ofList _, rfl, rfl, rfl⟩
  ofJson_toJson := ofJson_toJson

end TenantStore.User
