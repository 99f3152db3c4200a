/-!
# Parameters of the command line

Every parameter has a long name, and some have a letter. Most take a value; the others
are flags that stand for themselves.
-/

set_option autoImplicit false

namespace Tenure.CommandLine

/-- The parameters. -/
inductive Parameter where
  | config
  | edenSize
  | oldSize
  | promotionThreshold
  | cardSize
  | survivorRatio
  | majorInterval
  | adaptive
  | allocations
  | objectSize
  | fields
  | survival
  | maxRoots
  | linkProbability
  | seed
  | format
  | verbose
  | help
  | version
deriving DecidableEq, Repr

namespace Parameter

def all : List Parameter :=
  [.config, .edenSize, .oldSize, .promotionThreshold, .cardSize, .survivorRatio,
    .majorInterval, .adaptive, .allocations, .objectSize, .fields, .survival, .maxRoots,
    .linkProbability, .seed, .format, .verbose, .help, .version]

def long : Parameter → String
  | .config => "config"
  | .edenSize => "eden-size"
  | .oldSize => "old-size"
  | .promotionThreshold => "promotion-threshold"
  | .cardSize => "card-size"
  | .survivorRatio => "survivor-ratio"
  | .majorInterval => "major-interval"
  | .adaptive => "adaptive"
  | .allocations => "allocations"
  | .objectSize => "object-size"
  | .fields => "fields"
  | .survival => "survival"
  | .maxRoots => "max-roots"
  | .linkProbability => "link-probability"
  | .seed => "seed"
  | .format => "format"
  | .verbose => "verbose"
  | .help => "help"
  | .version => "version"

def short? : Parameter → Option Char
  | .config => some 'c'
  | .allocations => some 'n'
  | .format => some 'f'
  | .verbose => some 'v'
  | .help => some 'h'
  | .version => some 'V'
  | _ => none

def takesValue : Parameter → Bool
  | .adaptive => false
  | .verbose => false
  | .help => false
  | .version => false
  | _ => true

def purpose : Parameter → String
  | .config => "JSON collector configuration; the other options override its values"
  | .edenSize => "Eden capacity in bytes"
  | .oldSize => "Initial Old capacity in bytes"
  | .promotionThreshold => "Survival age at which objects are promoted (2..=15)"
  | .cardSize => "Card size in bytes (power of two)"
  | .survivorRatio => "Eden size divided by survivor region size"
  | .majorInterval => "Minor cycles between forced major cycles (0 disables)"
  | .adaptive => "Tune the promotion threshold from survival rates"
  | .allocations => "Number of objects to allocate"
  | .objectSize => "Size of each object in bytes"
  | .fields => "Reference fields per object"
  | .survival => "Probability that a new object is kept as a root"
  | .maxRoots => "Most roots kept at once; the oldest root is dropped beyond this"
  | .linkProbability => "Probability that a new object is stored into a rooted object"
  | .seed => "Random seed"
  | .format => "Report format: text or json"
  | .verbose => "Increase log verbosity (-v info, -vv debug)"
  | .help => "Print help"
  | .version => "Print version"

/-- The parameter with a long name; names cannot be shortened. -/
def ofLong? (name : String) : Option Parameter :=
  all.find? fun parameter => parameter.long = name

def ofShort? (letter : Char) : Option Parameter :=
  all.find? fun parameter => parameter.short? = some letter

end Parameter

end Tenure.CommandLine
