import AccessControl.Enforcer.Roles
import AccessControl.Enforcer.Setup
import AccessControl.Policy.Announcement
import AccessControl.Storage.Memory
import AccessControl.Value.Attribute
import AccessControl.Proofs.Decision.RowByRow
import AccessControl.Proofs.Enforcer.Linked
import AccessControl.Proofs.Enforcer.Moves
import AccessControl.Proofs.Enforcer.StoreFailure
import AccessControl.Proofs.Enforcer.RoleLinks
import AccessControl.Proofs.Decision.Cache
import AccessControl.Proofs.Decision.Fingerprint
import AccessControl.Proofs.Enforcer.Cached
import AccessControl.Proofs.Enforcer.Mirror
import AccessControl.Proofs.Model.Intact
import AccessControl.Proofs.Roles.Kinds
import AccessControl.Proofs.Enforcer.Rejection
import AccessControl.Proofs.Enforcer.Reload
import AccessControl.Proofs.Matcher.Strict
import AccessControl.Proofs.Enforcer.Revocation
import AccessControl.Proofs.Enforcer.Tenants
import AccessControl.Proofs.Matcher.Nesting
import AccessControl.Proofs.Matcher.Recognition
import AccessControl.Proofs.Matcher.Written
import AccessControl.Proofs.Enforcer.Served
import AccessControl.Proofs.Enforcer.Replay
import AccessControl.Proofs.Enforcer.AnyOrder
import AccessControl.Proofs.Enforcer.Additions
import AccessControl.Proofs.Roles.Closure
import AccessControl.Proofs.Enforcer.Permissions
import AccessControl.Proofs.Decision.Meaning
import AccessControl.Proofs.Roles.Queue
import AccessControl.Proofs.Enforcer.ImplicitRoles
import AccessControl.Proofs.Enforcer.NameRemoval
import AccessControl.Proofs.Policy.Batch
import AccessControl.Proofs.Model.Batch
import AccessControl.Proofs.Model.Exchange
import AccessControl.Proofs.Model.Ranked
import AccessControl.Proofs.Regex.Carries
import AccessControl.Proofs.Regex.Follows
import AccessControl.Proofs.Regex.Run
import AccessControl.Proofs.Regex.Row
import AccessControl.Proofs.Pattern.Parts
import AccessControl.Proofs.Pattern.Ways
import AccessControl.Proofs.Pattern.Colon
import AccessControl.Proofs.Pattern.Literal
import AccessControl.Proofs.Value.Order
import AccessControl.Proofs.Enforcer.FreshLinks
import AccessControl.Proofs.Enforcer.Spare
import AccessControl.Proofs.Enforcer.Removed
import AccessControl.Proofs.Pattern.Bindings
import AccessControl.Proofs.Matcher.Offsets
import AccessControl.Proofs.Matcher.Viable
import AccessControl.Proofs.Decision.Bounded
import AccessControl.Proofs.Model.FieldNames
import AccessControl.Proofs.Enforcer.Batch
import AccessControl.Proofs.Matcher.Integers
import AccessControl.Proofs.Model.Filters
import AccessControl.Proofs.Pattern.Star
import AccessControl.Proofs.Value.Symmetry
import AccessControl.Proofs.Matcher.Sides
import AccessControl.Proofs.Value.Structure
