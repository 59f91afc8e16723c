/-! The manual: an overview and a page for each topic. -/
namespace Introspect.Manual

inductive Topic where
  | language
  | clauses
  | sources
  | constraints
  | results
  | errors
deriving DecidableEq

namespace Topic

def title : Topic → String
  | language => "Syntax"
  | clauses => "Clauses"
  | sources => "Sources"
  | constraints => "Constraints"
  | results => "Results"
  | errors => "Errors"

/-- The names that a topic goes by. -/
def names : Topic → List String
  | language => ["syntax"]
  | clauses => ["clauses", "clause"]
  | sources => ["sources", "source"]
  | constraints => ["constraints", "constraint"]
  | results => ["results", "result", "output"]
  | errors => ["errors", "error"]

def all : List Topic :=
  [language, clauses, sources, constraints, results, errors]

/-- The topic of a name in any case. The names are ASCII, and no character outside of it has one of
their letters as its lower case. -/
def ofName? (name : String) : Option Topic :=
  all.find? fun topic => topic.names.contains name.toLower

end Topic

/-- The complaint about a name that is none of a topic. -/
def unknownMessage (name : String) : String :=
  s!"Unknown category: '{name}'\nRun 'iql docs' to see available categories."

/-- Lines, each with its end. -/
def text (lines : List String) : String :=
  String.join (lines.map (· ++ "\n"))

def overview : String :=
  text [
    "IQL DOCUMENTATION",
    "",
    "IQL is an introspection query language. A query asks one named source for a",
    "bounded set of its fields and returns them as JSON, together with timing and",
    "constraint information.",
    "",
    "DOCUMENTATION CATEGORIES",
    "",
    "  syntax            Query shape, keywords, identifiers and literals",
    "  clauses           SELECT, FROM, WHERE, DEPTH, WITH and CONSTRAINT",
    "  sources           The registered sources and the snapshot format",
    "  constraints       max_latency and how deadlines are enforced",
    "  results           The JSON result shape",
    "  errors            How failures are reported",
    "",
    "QUICK REFERENCE",
    "",
    "  INTROSPECT \x7b SELECT f1, f2 FROM source \x7d",
    "  INTROSPECT \x7b SELECT f FROM source DEPTH 2 WITH verbose = 1 \x7d",
    "  INTROSPECT \x7b SELECT f FROM source CONSTRAINT max_latency = \"50ms\" \x7d",
    "",
    "Run 'iql doc <category>' for detailed documentation."]

def languagePage : String :=
  text [
    "SYNTAX - Query Shape",
    "",
    "QUERY",
    "  INTROSPECT \x7b SELECT <fields> FROM <source> [clauses] \x7d",
    "",
    "  Example:",
    "    INTROSPECT \x7b SELECT mood, focus FROM current_cognitive_state \x7d",
    "",
    "KEYWORDS",
    "  INTROSPECT SELECT FROM WHERE DEPTH WITH CONSTRAINT",
    "",
    "  Keywords are case-insensitive: 'select', 'Select' and 'SELECT' are the",
    "  same. Everything else is case-sensitive.",
    "",
    "IDENTIFIERS",
    "  Field, source and key names. Start with a letter or underscore, continue",
    "  with letters, digits or underscores.",
    "",
    "LITERALS",
    "  \"text\" or 'text'    Strings, no escape sequences",
    "  42                  Integer",
    "  0.5                 Float (any number containing a decimal point)",
    "",
    "  Negative numbers and exponents are not part of the language.",
    "",
    "LENIENCY",
    "  In the default lenient mode, characters outside the language are dropped",
    "  with a warning and a string missing its closing quote ends at the end of",
    "  the query. Run with --strict to reject both."]

def clausesPage : String :=
  text [
    "CLAUSES",
    "",
    "SELECT f1, f2, ...",
    "  Required. Comma-separated field names. Duplicates are allowed; each",
    "  field appears once in the result.",
    "",
    "FROM source",
    "  Required. One source name. See 'iql doc sources'.",
    "",
    "WHERE k = v k2 = v2 ...",
    "  Optional. Filter pairs carried on the query. Pairs are written back to",
    "  back with no AND, OR or comma between them.",
    "",
    "DEPTH n",
    "  Optional. Recursion hint, default 1. A fractional value is truncated.",
    "",
    "WITH k = v ...",
    "  Optional. Free-form options, echoed as metadata.with_options.",
    "",
    "CONSTRAINT k = v ...",
    "  Optional. Checks evaluated after execution. See 'iql doc constraints'.",
    "",
    "ORDER",
    "  Optional clauses must appear in the order WHERE, DEPTH, WITH, CONSTRAINT."]

def sourcesPage : String :=
  text [
    "SOURCES",
    "",
    "REGISTERED NAMES",
    "  current_cognitive_state",
    "  restraints",
    "  council",
    "  twin",
    "  narrative",
    "  memory",
    "",
    "  Any other name fails the query with \"Unknown source\".",
    "",
    "AVAILABILITY",
    "  A source is available only if a subsystem was registered for it. Querying",
    "  an unavailable source returns a result whose only field is \"error\".",
    "",
    "SNAPSHOTS",
    "  The CLI reads sources from a JSON snapshot (--snapshot FILE or stdin):",
    "",
    "    \x7b",
    "      \"restraints\": \x7b \"active\": [\"no_network\"], \"count\": 1 \x7d,",
    "      \"twin\": null",
    "    \x7d",
    "",
    "  A null entry registers the source as unavailable.",
    "",
    "UNKNOWN FIELDS",
    "  A field the source does not have resolves to null. Other fields are",
    "  unaffected.",
    "",
    "  List what is available with 'iql sources'."]

def constraintsPage : String :=
  text [
    "CONSTRAINTS",
    "",
    "MAX LATENCY",
    "  CONSTRAINT max_latency = \"50ms\"",
    "",
    "  Accepted values: \"50ms\", \"2.5 ms\", \"50\" or the number 50, all in",
    "  milliseconds. Write the value as a string: 'max_latency = 50ms' without",
    "  quotes is a syntax error.",
    "",
    "  Each field read is given the remaining budget. A read that runs past it",
    "  resolves to \x7b\"error\": ...\x7d and constraints_satisfied is false. If the",
    "  total time exceeds the limit, constraints_satisfied is false as well.",
    "",
    "  A max_latency value that cannot be read as milliseconds counts as",
    "  unsatisfied.",
    "",
    "OTHER KEYS",
    "  Accepted and ignored."]

def resultsPage : String :=
  text [
    "RESULTS",
    "",
    "SHAPE",
    "  \x7b",
    "    \"query\": \"<query text>\",",
    "    \"fields\": \x7b \"<field>\": <value>, ... \x7d,",
    "    \"source\": \"<source name>\",",
    "    \"timestamp\": \"<RFC 3339>\",",
    "    \"execution_time_ms\": 0.12,",
    "    \"constraints_satisfied\": true,",
    "    \"metadata\": \x7b \"depth\": 1, \"with_options\": \x7b ... \x7d \x7d",
    "  \x7d",
    "",
    "  execution_time_ms covers reading fields from the source only."]

def errorsPage : String :=
  text [
    "ERRORS",
    "",
    "QUERY ERRORS",
    "  Syntax errors and unknown sources return:",
    "",
    "    \x7b \"source\": \"error\", \"fields\": \x7b \"error\": \"<message>\" \x7d,",
    "      \"execution_time_ms\": 0.0, \"constraints_satisfied\": false, ... \x7d",
    "",
    "  Syntax errors name the expected token, the token found and its",
    "  character position:",
    "",
    "    Syntax error: expected FROM, found RBRACE at position 22",
    "",
    "SOURCE ERRORS",
    "  An unavailable source returns its name as \"source\" and a single",
    "  \"error\" field.",
    "",
    "FIELD ERRORS",
    "  A failing field read becomes \x7b\"error\": \"<message>\"\x7d for that field",
    "  only."]

def Topic.page : Topic → String
  | language => languagePage
  | clauses => clausesPage
  | sources => sourcesPage
  | constraints => constraintsPage
  | results => resultsPage
  | errors => errorsPage

end Introspect.Manual
