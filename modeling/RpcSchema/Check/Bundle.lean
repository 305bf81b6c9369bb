import RpcSchema.Check.Body
import RpcSchema.Check.Circularity

/-!
# Checking a bundle

Every check is made, whatever the others find.  The findings come in a fixed order: names, rules, types,
procedures and streams, and circles of types.
-/

namespace RpcSchema

/-- What is wrong with a bundle. -/
def Bundle.findings (settings : Settings) (b : Bundle) : List Finding :=
  b.schema.nameFindings settings
    ++ b.schema.rules.flatMap b.ruleFindings
    ++ b.schema.types.flatMap (b.fieldFindings [] ·.items)
    ++ b.schema.statements.flatMap b.serviceFindings
    ++ b.circularityFindings

end RpcSchema
