import ContainerStack.Schema.Basic
import ContainerStack.Version

/-!
The schemas of the three document formats. The formats share every definition;
each later one extends the member lists of the one before. In the legacy format
the document itself is the map of services. In the versioned formats the
sections of services and volumes refuse names outside the pattern, while the
section of networks ignores such entries.
-/

namespace ContainerStack.Schema

def text : Schema :=
  .kinds [.string]

def flag : Schema :=
  .kinds [.boolean]

def textList : Schema :=
  .all [.kinds [.array], .items text]

def distinctTexts : Schema :=
  .all [.kinds [.array], .items text, .uniqueItems]

def textOrDistinctTexts : Schema :=
  .oneOf [text, distinctTexts]

def textOrTextList : Schema :=
  .oneOf [text, textList]

def quantity : Schema :=
  .kinds [.number, .string]

def closedRecord (members : List (String × Schema)) : Schema :=
  .all [.kinds [.object], .record members]

/-- Texts under names, as a mapping of scalars or a list of distinct texts. -/
def assignments : Schema :=
  .oneOf [
    .all [.kinds [.object],
      .dictionary .anyLetter (.kinds [.boolean, .null, .number, .string]) true],
    distinctTexts]

def duration : Schema :=
  .all [text, .format .duration]

def subnet : Schema :=
  .all [text, .format .subnet]

/-- Distinct ports, given as numbers or as texts of a format. -/
def portList (format : TextFormat) : Schema :=
  .all [.kinds [.array], .items (.all [quantity, .format format]), .uniqueItems]

def build : Schema :=
  .oneOf [
    text,
    closedRecord [
      ("context", text),
      ("dockerfile", text),
      ("args", assignments),
      ("labels", assignments),
      ("target", text),
      ("network", text),
      ("cache_from", distinctTexts),
      ("shm_size", .kinds [.integer, .string])]]

def logging : Schema :=
  closedRecord [("driver", text), ("options", .kinds [.object])]

def attachment : Schema :=
  .oneOf [
    closedRecord [
      ("aliases", distinctTexts),
      ("ipv4_address", text),
      ("ipv6_address", text)],
    .kinds [.null]]

def attachments : Schema :=
  .oneOf [
    distinctTexts,
    .all [.kinds [.object], .dictionary .entityName attachment true]]

def limit : Schema :=
  .oneOf [
    .kinds [.integer],
    .all [
      .kinds [.object],
      .required ["soft", "hard"],
      .record [("hard", .kinds [.integer]), ("soft", .kinds [.integer])]]]

def healthcheck : Schema :=
  closedRecord [
    ("disable", flag),
    ("interval", duration),
    ("retries", .kinds [.number]),
    ("start_period", duration),
    ("test", textOrDistinctTexts),
    ("timeout", duration)]

/-- The members of a service in every format. -/
def serviceMembers : List (String × Schema) := [
  ("build", build),
  ("cap_add", distinctTexts),
  ("cap_drop", distinctTexts),
  ("cgroup_parent", text),
  ("command", textOrTextList),
  ("container_name", text),
  ("cpu_shares", quantity),
  ("cpu_quota", quantity),
  ("cpuset", text),
  ("depends_on", textList),
  ("devices", distinctTexts),
  ("dns", textOrDistinctTexts),
  ("dns_search", textOrDistinctTexts),
  ("domainname", text),
  ("entrypoint", textOrTextList),
  ("env_file", textOrTextList),
  ("environment", assignments),
  ("expose", portList .expose),
  ("extra_hosts", assignments),
  ("hostname", text),
  ("image", text),
  ("ipc", text),
  ("labels", assignments),
  ("links", distinctTexts),
  ("logging", logging),
  ("mac_address", text),
  ("mem_limit", quantity),
  ("memswap_limit", quantity),
  ("mem_swappiness", .kinds [.integer]),
  ("network_mode", text),
  ("networks", attachments),
  ("oom_score_adj", .all [.kinds [.integer], .atLeast (-1000), .atMost 1000]),
  ("pid", .kinds [.null, .string]),
  ("ports", portList .ports),
  ("privileged", flag),
  ("read_only", flag),
  ("restart", text),
  ("security_opt", distinctTexts),
  ("shm_size", quantity),
  ("stdin_open", flag),
  ("stop_grace_period", duration),
  ("stop_signal", text),
  ("tmpfs", textOrDistinctTexts),
  ("tty", flag),
  ("ulimits", .all [.kinds [.object], .dictionary .lowercase limit false]),
  ("user", text),
  ("volumes", distinctTexts),
  ("volume_driver", text),
  ("volumes_from", distinctTexts),
  ("working_dir", text)]

/-- The members of a service that only the canonical format has. -/
def laterServiceMembers : List (String × Schema) := [
  ("healthcheck", healthcheck),
  ("sysctls", assignments),
  ("userns_mode", text),
  ("isolation", text)]

def driverOptions : Schema :=
  .all [.kinds [.object], .dictionary .singleLine (.kinds [.number, .string]) false]

def externalReference : Schema :=
  .all [.kinds [.boolean, .object], .record [("name", text)]]

def addressManagement : Schema :=
  closedRecord [
    ("driver", text),
    ("config", .all [
      .kinds [.array],
      .items (closedRecord [
        ("subnet", subnet),
        ("ip_range", subnet),
        ("gateway", text),
        ("aux_addresses", .kinds [.object])])]),
    ("options", .kinds [.object])]

def networkMembers : List (String × Schema) := [
  ("driver", text),
  ("driver_opts", driverOptions),
  ("ipam", addressManagement),
  ("external", externalReference),
  ("internal", flag)]

def laterNetworkMembers : List (String × Schema) := [
  ("enable_ipv6", flag),
  ("labels", assignments)]

def volumeMembers : List (String × Schema) := [
  ("driver", text),
  ("driver_opts", driverOptions),
  ("external", externalReference)]

def laterVolumeMembers : List (String × Schema) := [
  ("labels", assignments),
  ("name", text)]

/-- A map of entities, by name. -/
def sectionOf (entity : Schema) (closed : Bool) : Schema :=
  .all [.kinds [.object], .dictionary .entityName entity closed]

def versionedDocument (tag : String) (service network volume : Schema) : Schema :=
  .all [
    .kinds [.object],
    .required ["version"],
    .record [
      ("version", .all [text, .oneOfTexts [tag]]),
      ("services", sectionOf service true),
      ("networks", sectionOf network false),
      ("volumes", sectionOf volume true)]]

/-- The schema of whole documents in a format. -/
def ofVersion : FormatVersion → Schema
  | .v1 => sectionOf (closedRecord serviceMembers) true
  | .v20 =>
    versionedDocument FormatVersion.v20.tag (closedRecord serviceMembers)
      (closedRecord networkMembers) (closedRecord volumeMembers)
  | .v21 =>
    versionedDocument FormatVersion.v21.tag
      (closedRecord (serviceMembers ++ laterServiceMembers))
      (closedRecord (networkMembers ++ laterNetworkMembers))
      (closedRecord (volumeMembers ++ laterVolumeMembers))

end ContainerStack.Schema
