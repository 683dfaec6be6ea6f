import Msgsrvd.Core.Crc32c
import Msgsrvd.Wal.Cursor
import Msgsrvd.Wal.Codec
import Msgsrvd.Lib.Runs
import Msgsrvd.Wal.Crash
import Msgsrvd.Wal.Reopen
import Msgsrvd.Wal.Live
import Msgsrvd.Wal.Reading
import Msgsrvd.Proto.Framing
import Msgsrvd.Server.Barrier
import Msgsrvd.Server.Promises
import Msgsrvd.Server.Streams
import Msgsrvd.Wal.Resize
import Msgsrvd.Wal.Stale
import Msgsrvd.Server.Replay
import Msgsrvd.Wal.Failed
import Msgsrvd.Server.Subscribed
import Msgsrvd.Server.Floor
import Msgsrvd.Server.Delivers
import Msgsrvd.Server.Owed
import Msgsrvd.Wal.Prefix
import Msgsrvd.Server.Follows
import Msgsrvd.Wal.Flips
import Msgsrvd.Wal.Encodes
import Msgsrvd.Server.Sessions
import Msgsrvd.Server.Metrics
import Msgsrvd.Wal.Retained
import Msgsrvd.Server.Owners
import Msgsrvd.Server.Retaining
import Msgsrvd.Server.Reads
import Msgsrvd.Server.Covers
import Msgsrvd.Server.Copied
import Msgsrvd.Server.Consent
import Msgsrvd.Server.Confirms
import Msgsrvd.Server.Once
import Msgsrvd.Server.Appended
import Msgsrvd.Wal.Listing
import Msgsrvd.Server.Addresses
import Msgsrvd.Server.Removed
import Msgsrvd.Wal.Exact
import Msgsrvd.Core.ErrStack
import Msgsrvd.Core.Arena
import Msgsrvd.Proto.Complete
import Msgsrvd.Server.Wakes
import Msgsrvd.Server.Formed
import Msgsrvd.Server.Scraped
import Msgsrvd.Server.Latency
import Msgsrvd.Sys.Transfers
