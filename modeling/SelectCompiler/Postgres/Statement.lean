import SelectCompiler.Postgres.BindValue
import SelectCompiler.Statement.Query

/-!
Queries in the form that Postgres takes: placeholders numbered from one in the order of the
parameters, and values of the types that the hints name.
-/

namespace SelectCompiler

structure PostgresStatement where
  sql : String
  values : List BindValue
  deriving DecidableEq

/-- The statement of a query, or the fault of its first parameter that has the wrong type. -/
def Query.toPostgres (query : Query) (readers : Calendar.Readers := Calendar.readers) :
    Except Error PostgresStatement := do
  let values ← query.parameters.mapM fun parameter => BindValue.ofParameter parameter readers
  let allocated := query.parameters.map (·.index)
  return ⟨Placeholder.renumber (Placeholder.lastPosition? allocated) query.sql, values⟩

end SelectCompiler
