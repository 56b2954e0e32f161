/-!
# The template of configuration files

A configuration file with all the defaults and an explanation of each of them.
-/

namespace Variability.Config

/-- The lines of the template. -/
def templateLines : List String :=
  [
    "# vpscan configuration",
    "#",
    "# Every key is optional; the values below are the defaults.",
    "",
    "hotspots:",
    "  # Variants of a VP, or method plus constructor overloads of a class,",
    "  # at which it becomes a hotspot.",
    "  nb_variants_threshold: 20",
    "  # Size of the composition subgraph below a VP at which every node in it",
    "  # becomes an aggregation hotspot.",
    "  nb_aggregations_threshold: 5",
    "",
    "store:",
    "  retry:",
    "    # Attempts at each graph operation while the store is unavailable.",
    "    max_attempts: 20",
    "    delay_ms: 5000",
    "",
    "# Glob patterns, relative to the source root, of files to leave out.",
    "# Directories named test or tests are always skipped.",
    "excluded_paths: []",
    "#  - \"**/generated/**\""
  ]

/-- The template. -/
def template : String := String.join (templateLines.map (· ++ "\n"))

end Variability.Config
