import Cove.Python.Basic
import Cove.Python.Text
import Cove.Bip39.Wordlist
import Cove.Bip39.Resolver
import Cove.Bip39.English
import Cove.Bip39.WordIndex
import Cove.Bip39.Packing
import Cove.Bip39.Checksum
import Cove.Bip39.LookupGenerator
import Cove.Scripts.StripFfiDuplicates
