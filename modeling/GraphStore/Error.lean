/-!
# Errors

The causes for which an operation of the store or of the query language fails. Each has a stable
code for programs and a message for people.
-/

set_option autoImplicit false

namespace GraphStore

/-- Why the system refuses an access. -/
inductive OsError where
  /-- A failure that the system reports by its number. -/
  | reported (number : Int32)
  /-- A name holds a zero character, with which the system cannot be asked. -/
  | zeroInName
deriving Repr, DecidableEq

namespace OsError

def noEntry : OsError := .reported 2
def alreadyExists : OsError := .reported 17
def notDirectory : OsError := .reported 20
def isDirectory : OsError := .reported 21
def invalidArgument : OsError := .reported 22
def nameTooLong : OsError := .reported 36
def directoryNotEmpty : OsError := .reported 39
def addressNotAvailable : OsError := .reported 99

def texts : List (Int32 × String) :=
  [(0, "Success"), (1, "Operation not permitted"), (2, "No such file or directory"),
   (3, "No such process"), (4, "Interrupted system call"), (5, "Input/output error"),
   (6, "No such device or address"), (7, "Argument list too long"), (8, "Exec format error"),
   (9, "Bad file descriptor"), (10, "No child processes"),
   (11, "Resource temporarily unavailable"), (12, "Cannot allocate memory"),
   (13, "Permission denied"), (14, "Bad address"), (15, "Block device required"),
   (16, "Device or resource busy"), (17, "File exists"), (18, "Invalid cross-device link"),
   (19, "No such device"), (20, "Not a directory"), (21, "Is a directory"),
   (22, "Invalid argument"), (23, "Too many open files in system"), (24, "Too many open files"),
   (25, "Inappropriate ioctl for device"), (26, "Text file busy"), (27, "File too large"),
   (28, "No space left on device"), (29, "Illegal seek"), (30, "Read-only file system"),
   (31, "Too many links"), (32, "Broken pipe"), (33, "Numerical argument out of domain"),
   (34, "Numerical result out of range"), (35, "Resource deadlock avoided"),
   (36, "File name too long"), (37, "No locks available"), (38, "Function not implemented"),
   (39, "Directory not empty"), (40, "Too many levels of symbolic links"),
   (42, "No message of desired type"), (43, "Identifier removed"),
   (44, "Channel number out of range"), (45, "Level 2 not synchronized"), (46, "Level 3 halted"),
   (47, "Level 3 reset"), (48, "Link number out of range"), (49, "Protocol driver not attached"),
   (50, "No CSI structure available"), (51, "Level 2 halted"), (52, "Invalid exchange"),
   (53, "Invalid request descriptor"), (54, "Exchange full"), (55, "No anode"),
   (56, "Invalid request code"), (57, "Invalid slot"), (59, "Bad font file format"),
   (60, "Device not a stream"), (61, "No data available"), (62, "Timer expired"),
   (63, "Out of streams resources"), (64, "Machine is not on the network"),
   (65, "Package not installed"), (66, "Object is remote"), (67, "Link has been severed"),
   (68, "Advertise error"), (69, "Srmount error"), (70, "Communication error on send"),
   (71, "Protocol error"), (72, "Multihop attempted"), (73, "RFS specific error"),
   (74, "Bad message"), (75, "Value too large for defined data type"),
   (76, "Name not unique on network"), (77, "File descriptor in bad state"),
   (78, "Remote address changed"), (79, "Can not access a needed shared library"),
   (80, "Accessing a corrupted shared library"), (81, ".lib section in a.out corrupted"),
   (82, "Attempting to link in too many shared libraries"),
   (83, "Cannot exec a shared library directly"),
   (84, "Invalid or incomplete multibyte or wide character"),
   (85, "Interrupted system call should be restarted"), (86, "Streams pipe error"),
   (87, "Too many users"), (88, "Socket operation on non-socket"),
   (89, "Destination address required"), (90, "Message too long"),
   (91, "Protocol wrong type for socket"), (92, "Protocol not available"),
   (93, "Protocol not supported"), (94, "Socket type not supported"),
   (95, "Operation not supported"), (96, "Protocol family not supported"),
   (97, "Address family not supported by protocol"), (98, "Address already in use"),
   (99, "Cannot assign requested address"), (100, "Network is down"),
   (101, "Network is unreachable"), (102, "Network dropped connection on reset"),
   (103, "Software caused connection abort"), (104, "Connection reset by peer"),
   (105, "No buffer space available"), (106, "Transport endpoint is already connected"),
   (107, "Transport endpoint is not connected"),
   (108, "Cannot send after transport endpoint shutdown"),
   (109, "Too many references: cannot splice"), (110, "Connection timed out"),
   (111, "Connection refused"), (112, "Host is down"), (113, "No route to host"),
   (114, "Operation already in progress"), (115, "Operation now in progress"),
   (116, "Stale file handle"), (117, "Structure needs cleaning"),
   (118, "Not a XENIX named type file"), (119, "No XENIX semaphores available"),
   (120, "Is a named type file"), (121, "Remote I/O error"), (122, "Disk quota exceeded"),
   (123, "No medium found"), (124, "Wrong medium type"), (125, "Operation canceled"),
   (126, "Required key not available"), (127, "Key has expired"), (128, "Key has been revoked"),
   (129, "Key was rejected by service"), (130, "Owner died"), (131, "State not recoverable"),
   (132, "Operation not possible due to RF-kill"), (133, "Memory page has hardware error")]

def number? : OsError → Option Int32
  | reported number => some number
  | zeroInName => none

/-- The text of a failure, with its number if it has one. -/
def message : OsError → String
  | reported number =>
      let text := (texts.lookup number).getD s!"Unknown error {number.toInt}"
      s!"{text} (os error {number.toInt})"
  | zeroInName => "file name contained an unexpected NUL byte"

end OsError

/-- A place in a query text. Lines and columns count from 1; a column counts characters. -/
structure Position where
  line : Nat
  column : Nat
deriving Repr, DecidableEq, Inhabited

def Position.start : Position := ⟨1, 1⟩

/-- The causes of failure. Paths are held as they are shown. -/
inductive Error where
  /-- A query is not well formed at this place. -/
  | syntaxError (position : Position) (detail : String)
  /-- A byte sequence does not have the size of the record it should hold. -/
  | malformedRecord (record : String) (expected actual : Nat)
  /-- A payload does not fit in its slot. -/
  | payloadTooLarge (what : String) (limit actual : Nat)
  /-- A value cannot be stored, or a stored value cannot be read. -/
  | valueOutOfRange (detail : String)
  /-- A store file has another format than its reader expects. -/
  | incompatibleStore (path reason : String)
  /-- The system refused an access to a store or catalog file. -/
  | storeAccess (path : String) (cause : OsError)
  /-- The system refused an access that belongs to no file. -/
  | systemFailure (cause : OsError)
  /-- The catalog could not be loaded or made. -/
  | initialization (detail : String)
  /-- The directory of the database is missing. -/
  | databaseMissing (path : String)
  | collectionNotFound (name : String)
  | collectionExists (name : String)
  /-- A collection name is empty, too long or holds a forbidden character. -/
  | invalidCollectionName (name : String)
  /-- A record does not exist or is not in use. -/
  | notFound (detail : String)
  /-- A record refers to another one that does not exist. -/
  | invalidReference (detail : String)
  | internal (detail : String)
deriving Repr, DecidableEq

namespace Error

def code : Error → String
  | syntaxError .. => "SYNTAX_ERROR"
  | malformedRecord .. => "MALFORMED_RECORD"
  | payloadTooLarge .. => "PAYLOAD_TOO_LARGE"
  | valueOutOfRange .. => "VALUE_OUT_OF_RANGE"
  | incompatibleStore .. => "INCOMPATIBLE_STORE_FORMAT"
  | storeAccess .. => "STORE_IO_ERROR"
  | systemFailure .. => "STORE_IO_ERROR"
  | initialization .. => "ENGINE_INITIALIZATION"
  | databaseMissing .. => "DATABASE_MISSING"
  | collectionNotFound .. => "COLLECTION_NOT_FOUND"
  | collectionExists .. => "COLLECTION_EXISTS"
  | invalidCollectionName .. => "INVALID_COLLECTION_NAME"
  | notFound .. => "NOT_FOUND"
  | invalidReference .. => "INVALID_REFERENCE"
  | internal .. => "INTERNAL"

def message : Error → String
  | syntaxError position detail =>
      s!"Syntax error at line {position.line}, column {position.column}: {detail}"
  | malformedRecord record expected actual =>
      s!"Malformed {record} record: expected {expected} bytes, got {actual}"
  | payloadTooLarge what limit actual => s!"{what} too large: limit {limit}, got {actual}"
  | valueOutOfRange detail => s!"Value out of range: {detail}"
  | incompatibleStore path reason => s!"Incompatible store format in {path}: {reason}"
  | storeAccess path cause => s!"Store I/O error on {path}: {cause.message}"
  | systemFailure cause => s!"I/O error: {cause.message}"
  | initialization detail => s!"Engine initialization failed: {detail}"
  | databaseMissing path => s!"Database directory does not exist: {path}"
  | collectionNotFound name => s!"Collection not found: {name}"
  | collectionExists name => s!"Collection already exists: {name}"
  | invalidCollectionName name =>
      s!"Invalid collection name '{name}': use 1-64 ASCII letters, digits, '_' or '-'"
  | notFound detail => s!"Not found: {detail}"
  | invalidReference detail => s!"Invalid reference: {detail}"
  | internal detail => s!"Internal error: {detail}"

/-- The system's failure behind a cause. -/
def osError? : Error → Option OsError
  | storeAccess _ cause => some cause
  | systemFailure cause => some cause
  | _ => none

def position? : Error → Option Position
  | syntaxError position _ => some position
  | _ => none

/-- Whether a cause means that a store file is damaged or of another format. -/
def isRecordFormat : Error → Bool
  | malformedRecord .. => true
  | payloadTooLarge .. => true
  | valueOutOfRange .. => true
  | incompatibleStore .. => true
  | _ => false

end Error

end GraphStore
